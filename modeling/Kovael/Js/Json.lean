import Mathlib.Data.List.Lex
import Mathlib.Data.List.Sort
import Kovael.Js.Text

/-!
# JSON values

What `JSON.parse` returns and `JSON.stringify` takes, with the field operations
of objects and `JSON.stringify` itself.

Mirroring notes:
- a number is the text `JSON.stringify` gives it; equal numbers have equal
  texts and nothing below calculates with one.
- an object is its own fields in the order they are enumerated: array indices
  first and ascending, then the other keys as they were added. The keys are
  distinct.
- a string is a list of code points, so there are no lone surrogates to escape.
-/

namespace Js

/-- A JSON value. -/
inductive Json where
  | null
  | bool (b : Bool)
  | number (text : String)
  | string (s : String)
  | array (xs : List Json)
  | object (fields : List (String × Json))

/-- The UTF-16 units of a string, which is what `<` and `sort()` compare. -/
def units (s : String) : List Nat :=
  s.toList.flatMap fun c =>
    if c.toNat < 0x10000 then [c.toNat]
    else [0xD800 + (c.toNat - 0x10000) / 0x400, 0xDC00 + (c.toNat - 0x10000) % 0x400]

/-- The number of a key that is an array index, which is one that prints as the
key. -/
def arrayIndex? (key : String) : Option Nat :=
  let n := key.toList.foldl (fun n c => 10 * n + (c.toNat - '0'.toNat)) 0
  if toString n = key ∧ n < 4294967295 then some n else none

/-- The order in which an object that was filled in the order of `fields`
enumerates them. -/
def enumerated {α : Type} (fields : List (String × α)) : List (String × α) :=
  (fields.filter fun f => (arrayIndex? f.1).isSome).insertionSort
      (fun a b => (arrayIndex? a.1).getD 0 ≤ (arrayIndex? b.1).getD 0)
    ++ fields.filter fun f => (arrayIndex? f.1).isNone

namespace Json

/-- `JSON.stringify` of an integer. -/
def ofInt (n : Int) : Json := .number (toString n)

/-- A string, or `null`. -/
def ofString? : Option String → Json
  | none => .null
  | some s => .string s

/-- `value[key]`; `none` is `undefined`. -/
def field? (key : String) : Json → Option Json
  | .object fields => (fields.find? fun f => f.1 = key).map Prod.snd
  | _ => none

/-- `value`, where `typeof value === 'string'`. -/
def string? : Json → Option String
  | .string s => some s
  | _ => none

/-- `value[key]`, where it is a string. -/
def stringField? (key : String) (value : Json) : Option String :=
  (value.field? key).bind string?

/-- `value[key] = v` for a key that is no array index. -/
def setField (value : Json) (key : String) (v : Json) : Json :=
  match value with
  | .object fields =>
    .object (if fields.any fun f => f.1 = key then
        fields.map fun f => if f.1 = key then (key, v) else f
      else fields ++ [(key, v)])
  | value => value

/-- `delete value[key]`. -/
def deleteField (key : String) : Json → Json
  | .object fields => .object (fields.filter fun f => f.1 ≠ key)
  | value => value

mutual

/-- `String(value)`; `none` if it throws, as on an object whose own `toString` is no function. -/
def toText? : Json → Option String
  | .null => some "null"
  | .bool b => some (if b then "true" else "false")
  | .number text => some text
  | .string s => some s
  | .array xs => (toTexts? xs).map (",".intercalate ·)
  | .object fields => if fields.any fun f => f.1 = "toString" then none else some "[object Object]"

/-- The items as `join` prints them. -/
def toTexts? : List Json → Option (List String)
  | [] => some []
  | .null :: xs => (toTexts? xs).map ("" :: ·)
  | x :: xs => (toText? x).bind fun s => (toTexts? xs).map (s :: ·)

end

/-- `String(value ?? '')`. -/
def textOr? : Option Json → Option String
  | none | some .null => some ""
  | some value => value.toText?

/-- A hexadecimal digit, lower case. -/
def hexDigit (n : Nat) : Char := if n < 10 then Char.ofNat (48 + n) else Char.ofNat (87 + n)

/-- One character inside a JSON string. -/
def escapeChar (c : Char) : List Char :=
  if c = '"' then ['\\', '"']
  else if c = '\\' then ['\\', '\\']
  else if c.toNat = 8 then ['\\', 'b']
  else if c.toNat = 9 then ['\\', 't']
  else if c.toNat = 10 then ['\\', 'n']
  else if c.toNat = 12 then ['\\', 'f']
  else if c.toNat = 13 then ['\\', 'r']
  else if c.toNat < 32 then ['\\', 'u', '0', '0', hexDigit (c.toNat / 16), hexDigit (c.toNat % 16)]
  else [c]

/-- `JSON.stringify` of a string. -/
def quote (s : String) : String := "\"" ++ String.ofList (s.toList.flatMap escapeChar) ++ "\""

mutual

/-- `JSON.stringify(value)`. -/
def stringify : Json → String
  | .null => "null"
  | .bool b => if b then "true" else "false"
  | .number text => text
  | .string s => quote s
  | .array xs => "[" ++ ",".intercalate (stringifyItems xs) ++ "]"
  | .object fields => "\x7b" ++ ",".intercalate (stringifyFields fields) ++ "\x7d"

def stringifyItems : List Json → List String
  | [] => []
  | x :: xs => stringify x :: stringifyItems xs

def stringifyFields : List (String × Json) → List String
  | [] => []
  | (key, v) :: fields => (quote key ++ ":" ++ stringify v) :: stringifyFields fields

end

/-- A field of an object reads as it was last set. -/
theorem stringField?_setField (key s : String) (fields : List (String × Json)) :
    ((Json.object fields).setField key (.string s)).stringField? key = some s := by
  have hfind : ∀ fields : List (String × Json), fields.any (fun f => f.1 = key) = true →
      (fields.map fun f => if f.1 = key then (key, Json.string s) else f).find? (fun f => f.1 = key)
        = some (key, .string s) := by
    intro fields
    induction fields with
    | nil =>
      intro h
      exact absurd h (by simp)
    | cons f fields ih =>
      intro h
      by_cases hf : f.1 = key
      · simp [hf]
      · rw [List.any_cons, decide_eq_false hf, Bool.false_or] at h
        rw [List.map_cons, if_neg hf, List.find?_cons_of_neg (by simpa using hf)]
        exact ih h
  rw [stringField?, setField]
  by_cases h : fields.any (fun f => f.1 = key) = true
  · rw [if_pos h, field?, hfind fields h, Option.map_some, Option.bind_some, string?]
  · have hnone : fields.find? (fun f => f.1 = key) = none := by
      rw [List.find?_eq_none]
      intro f hf hkey
      exact h (List.any_eq_true.mpr ⟨f, hf, hkey⟩)
    rw [if_neg h, field?, List.find?_append, hnone]
    simp [string?]

end Json

/-- A block that returns got through its first step. -/
theorem bind_ok {ε α β : Type} {x : Except ε α} {f : α → Except ε β} {y : β}
    (h : x >>= f = .ok y) : ∃ a, x = .ok a ∧ f a = .ok y := by
  cases x with
  | error e => exact absurd h (fun h => nomatch h)
  | ok a => exact ⟨a, rfl, h⟩

end Js
