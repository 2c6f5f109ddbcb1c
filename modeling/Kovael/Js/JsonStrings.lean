import Kovael.Js.Json

/-!
# Arrays of strings as JSON texts

`JSON.stringify` of a `string[]`, and `JSON.parse` of the texts it gives, with
the round trip `parseStrings_stringifyStrings`. `parseStrings` reads no other
text: not one with white space in it, nor one with a `\u` escape that is half
of a surrogate pair.
-/

namespace Js

namespace Json

/-- `JSON.stringify(xs)` of an array of strings. -/
def stringifyStrings (xs : List String) : String := stringify (.array (xs.map .string))

/-- The character that `\e` stands for. -/
def escaped? (e : Char) : Option Char :=
  if e = '"' ∨ e = '\\' ∨ e = '/' then some e
  else if e = 'b' then some (Char.ofNat 8)
  else if e = 't' then some (Char.ofNat 9)
  else if e = 'n' then some (Char.ofNat 10)
  else if e = 'f' then some (Char.ofNat 12)
  else if e = 'r' then some (Char.ofNat 13)
  else none

/-- The character that the four digits after `\u` stand for. -/
def codeUnit? (a b c d : Char) : Option Char :=
  match hexVal a, hexVal b, hexVal c, hexVal d with
  | some x, some y, some z, some w =>
    let n := 4096 * x + 256 * y + 16 * z + w
    if n < 0xD800 ∨ 0xDFFF < n then some (Char.ofNat n) else none
  | _, _, _, _ => none

/-- A character in front of what was read. -/
def putChar (c : Char) (read : Option (List Char × List Char)) : Option (List Char × List Char) :=
  read.map fun r => (c :: r.1, r.2)

/-- The characters of a string up to its closing quote, and what follows it. -/
def unquote : List Char → Option (List Char × List Char)
  | [] => none
  | c :: cs =>
    if c = '"' then some ([], cs)
    else if c = '\\' then
      match cs with
      | 'u' :: a :: b :: x :: y :: rest => (codeUnit? a b x y).bind fun u => putChar u (unquote rest)
      | e :: rest => (escaped? e).bind fun u => putChar u (unquote rest)
      | [] => none
    else if c.toNat < 32 then none
    else putChar c (unquote cs)

/-- The items of an array of strings, after its opening bracket. -/
def parseItems : Nat → List Char → Option (List String)
  | fuel + 1, '"' :: cs =>
    match unquote cs with
    | some (s, [']']) => some [String.ofList s]
    | some (s, ',' :: rest) => (parseItems fuel rest).map (String.ofList s :: ·)
    | _ => none
  | _, _ => none

/-- `JSON.parse(text)`, where it is an array of strings. -/
def parseStrings (text : String) : Option (List String) :=
  match text.toList with
  | ['[', ']'] => some []
  | '[' :: cs => parseItems cs.length cs
  | _ => none

/-! ## The round trip -/

theorem codeUnit?_hexDigit : ∀ n < 32,
    codeUnit? '0' '0' (hexDigit (n / 16)) (hexDigit (n % 16)) = some (Char.ofNat n) := by
  decide

theorem char_eq_ofNat {c : Char} {n : Nat} (h : c.toNat = n) : c = Char.ofNat n := by
  rw [← h, Char.ofNat_toNat]

/-- An escaped character is read as the character. -/
theorem unquote_escapeChar (c : Char) (cs : List Char) :
    unquote (escapeChar c ++ cs) = putChar c (unquote cs) := by
  unfold escapeChar
  split
  next h => rw [h]; rfl
  split
  next h => rw [h]; rfl
  split
  next h => rw [char_eq_ofNat h]; rfl
  split
  next h => rw [char_eq_ofNat h]; rfl
  split
  next h => rw [char_eq_ofNat h]; rfl
  split
  next h => rw [char_eq_ofNat h]; rfl
  split
  next h => rw [char_eq_ofNat h]; rfl
  split
  next h =>
    have hunit := codeUnit?_hexDigit c.toNat h
    rw [Char.ofNat_toNat] at hunit
    show (codeUnit? '0' '0' (hexDigit (c.toNat / 16)) (hexDigit (c.toNat % 16))).bind
      (fun u => putChar u (unquote cs)) = _
    rw [hunit, Option.bind_some]
  next hquote hslash _ _ _ _ _ hlow =>
    rw [List.singleton_append, unquote.eq_def]
    simp only [if_neg hquote, if_neg hslash, if_neg hlow]

/-- The characters between the quotes are read back, and no more. -/
theorem unquote_flatMap (cs rest : List Char) :
    unquote (cs.flatMap escapeChar ++ '"' :: rest) = some (cs, rest) := by
  induction cs with
  | nil => rw [List.flatMap_nil, List.nil_append, unquote.eq_def]; rfl
  | cons c cs ih => rw [List.flatMap_cons, List.append_assoc, unquote_escapeChar, ih]; rfl

theorem toList_quote (s : String) :
    (quote s).toList = '"' :: (s.toList.flatMap escapeChar ++ ['"']) := by
  rw [quote, String.toList_append, String.toList_append, String.toList_ofList]
  simp

/-- The characters of the items, separated by commas. -/
def itemChars : List String → List Char
  | [] => []
  | [s] => (quote s).toList
  | s :: t :: xs => (quote s).toList ++ ',' :: itemChars (t :: xs)

theorem parseItems_itemChars : ∀ (xs : List String) (s : String) (fuel : Nat), xs.length < fuel →
    parseItems fuel (itemChars (s :: xs) ++ [']']) = some (s :: xs)
  | [], s, fuel + 1, _ => by
    rw [itemChars, toList_quote, List.cons_append, List.append_assoc, parseItems]
    show (match unquote (s.toList.flatMap escapeChar ++ '"' :: [']']) with
      | some (s, [']']) => some [String.ofList s]
      | some (s, ',' :: rest) => (parseItems fuel rest).map (String.ofList s :: ·)
      | _ => none) = _
    rw [unquote_flatMap]
    simp
  | t :: xs, s, fuel + 1, h => by
    rw [itemChars, toList_quote]
    show (match unquote ((s.toList.flatMap escapeChar ++ ['"']) ++ ',' :: itemChars (t :: xs)
        ++ [']']) with
      | some (s, [']']) => some [String.ofList s]
      | some (s, ',' :: rest) => (parseItems fuel rest).map (String.ofList s :: ·)
      | _ => none) = _
    have hrest : (s.toList.flatMap escapeChar ++ ['"']) ++ ',' :: itemChars (t :: xs) ++ [']']
        = s.toList.flatMap escapeChar ++ '"' :: ',' :: (itemChars (t :: xs) ++ [']']) := by simp
    rw [hrest, unquote_flatMap]
    have hitems := parseItems_itemChars xs t fuel (by simpa using h)
    simp [hitems]

theorem toList_intercalate_quote : ∀ xs : List String,
    (",".intercalate (stringifyItems (xs.map .string))).toList = itemChars xs
  | [] => rfl
  | [s] => by simp [stringifyItems, stringify, itemChars]
  | s :: t :: xs => by
    have ih := toList_intercalate_quote (t :: xs)
    rw [String.toList_intercalate] at ih ⊢
    simp only [List.map_cons, stringifyItems, stringify] at ih ⊢
    rw [itemChars, ← ih]
    simp [List.intercalate]

theorem length_le_itemChars : ∀ xs : List String, xs.length ≤ (itemChars xs).length
  | [] => Nat.le_refl _
  | [s] => by simp [itemChars, toList_quote]
  | s :: t :: xs => by
    have ih := length_le_itemChars (t :: xs)
    simp only [itemChars, List.length_append, List.length_cons] at ih ⊢
    omega

/-- What `JSON.stringify` wrote, `JSON.parse` reads back. -/
theorem parseStrings_stringifyStrings (xs : List String) :
    parseStrings (stringifyStrings xs) = some xs := by
  have htext : (stringifyStrings xs).toList = '[' :: (itemChars xs ++ [']']) := by
    rw [stringifyStrings, stringify, String.toList_append, String.toList_append,
      toList_intercalate_quote]
    rfl
  cases xs with
  | nil => rfl
  | cons s xs =>
    rw [parseStrings, htext]
    have hlen := length_le_itemChars (s :: xs)
    have hitems := parseItems_itemChars xs s (itemChars (s :: xs) ++ [']']).length
      (by simp only [List.length_append, List.length_cons] at hlen ⊢; omega)
    split
    next heq =>
      rw [List.cons.injEq] at heq
      rw [heq.2] at hitems
      exact absurd hitems (by simp [parseItems])
    next cs _ heq =>
      rw [List.cons.injEq] at heq
      rw [← heq.2]
      exact hitems
    next hne => exact absurd rfl (hne _)

end Json

end Js
