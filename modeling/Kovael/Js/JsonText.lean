import Mathlib.Data.List.TakeWhile
import Kovael.Js.JsonStrings

/-!
# `JSON.parse`

The texts of JSON and the values they stand for, with the round trip
`parse_stringify`: a value that JavaScript can hold is read back from its own
text.

Mirroring notes:
- `number` is `String(Number(text))` on the literals of JSON: what a literal
  reads as and how that is printed is not modelled. A literal out of range reads
  as `Infinity`.
- An object keeps one field for a key that occurs twice, the last, in the place
  of the first, and enumerates its array indices before its other keys.
- A surrogate that is no half of a pair is read as U+FFFD: strings here are
  lists of code points.
-/

namespace Js

namespace Json

/-! ## Tokens -/

/-- White space between tokens. -/
def isSpace (c : Char) : Bool := c = ' ' || c = '\n' || c = '\t' || c = '\r'

def skipSpace (cs : List Char) : List Char := cs.dropWhile isSpace

/-- The number that the four digits after `\u` stand for. -/
def hex4 (a b c d : Char) : Option Nat :=
  match hexVal a, hexVal b, hexVal c, hexVal d with
  | some x, some y, some z, some w => some (4096 * x + 256 * y + 16 * z + w)
  | _, _, _, _ => none

/-- The character of a code unit that is no half of a pair. -/
def unitChar (n : Nat) : Char := if 0xD800 ≤ n ∧ n ≤ 0xDFFF then Char.ofNat 0xFFFD else Char.ofNat n

/-- The second half of a surrogate pair, escaped, and what follows it. -/
def lowHalf? : List Char → Option (Nat × List Char)
  | '\\' :: 'u' :: a :: b :: c :: d :: rest =>
    (hex4 a b c d).bind fun n => if 0xDC00 ≤ n ∧ n ≤ 0xDFFF then some (n, rest) else none
  | _ => none

/-- The characters of a string up to its closing quote, and what follows it. -/
def readString : Nat → List Char → Option (List Char × List Char)
  | 0, _ => none
  | _ + 1, [] => none
  | fuel + 1, c :: cs =>
    if c = '"' then some ([], cs)
    else if c = '\\' then
      match cs with
      | 'u' :: a :: b :: x :: y :: rest =>
        (hex4 a b x y).bind fun n =>
          match (if 0xD800 ≤ n ∧ n ≤ 0xDBFF then lowHalf? rest else none) with
          | some (low, rest) =>
            putChar (Char.ofNat (0x10000 + 0x400 * (n - 0xD800) + (low - 0xDC00)))
              (readString fuel rest)
          | none => putChar (unitChar n) (readString fuel rest)
      | e :: rest => (escaped? e).bind fun u => putChar u (readString fuel rest)
      | [] => none
    else if c.toNat < 32 then none
    else putChar c (readString fuel cs)

/-- A character that can stand in a number. -/
def isNumberChar (c : Char) : Bool :=
  c.isDigit || c = '-' || c = '+' || c = '.' || c = 'e' || c = 'E'

/-- One digit or more, and no other character. -/
def isDigits (cs : List Char) : Bool := !cs.isEmpty && cs.all Char.isDigit

/-- The digits of an exponent. -/
def dropSign : List Char → List Char
  | '+' :: ds | '-' :: ds => ds
  | ds => ds

/-- What may follow the digits after the point: nothing, or an exponent. -/
def isExponent : List Char → Bool
  | [] => true
  | c :: cs => (c = 'e' || c = 'E') && isDigits (dropSign cs)

/-- What may follow the digits before the point. -/
def isFraction : List Char → Bool
  | '.' :: cs => isDigits (cs.takeWhile Char.isDigit) && isExponent (cs.dropWhile Char.isDigit)
  | cs => isExponent cs

/-- A number without a sign. -/
def isUnsigned : List Char → Bool
  | '0' :: cs => isFraction cs
  | cs => isDigits (cs.takeWhile Char.isDigit) && isFraction (cs.dropWhile Char.isDigit)

/-- A number as JSON writes it. -/
def isNumber : List Char → Bool
  | '-' :: cs => isUnsigned cs
  | cs => isUnsigned cs

/-! ## Values -/

/-- `object[key] = v`, where `fields` is in the order of assignment. -/
def assign (fields : List (String × Json)) (f : String × Json) : List (String × Json) :=
  if fields.any fun g => g.1 = f.1 then fields.map fun g => if g.1 = f.1 then f else g
  else fields ++ [f]

/-- The object that the members make. -/
def ofMembers (members : List (String × Json)) : Json := .object (enumerated (members.foldl assign []))

section

variable (number : String → String)

/-- A number, after its white space. -/
def readNumber (cs : List Char) : Option (Json × List Char) :=
  let text := cs.takeWhile isNumberChar
  if isNumber text then some (.number (number (String.ofList text)), cs.dropWhile isNumberChar)
  else none

/-- A key and its colon. -/
def readKey (fuel : Nat) (cs : List Char) : Option (String × List Char) :=
  match skipSpace cs with
  | '"' :: rest =>
    (readString fuel rest).bind fun r =>
      match skipSpace r.2 with
      | ':' :: rest => some (String.ofList r.1, rest)
      | _ => none
  | _ => none

mutual

/-- A value, and what follows it. -/
def readValue : Nat → List Char → Option (Json × List Char)
  | 0, _ => none
  | fuel + 1, cs =>
    match skipSpace cs with
    | 'n' :: 'u' :: 'l' :: 'l' :: rest => some (.null, rest)
    | 't' :: 'r' :: 'u' :: 'e' :: rest => some (.bool true, rest)
    | 'f' :: 'a' :: 'l' :: 's' :: 'e' :: rest => some (.bool false, rest)
    | '"' :: rest => (readString (rest.length + 1) rest).map fun r => (.string (String.ofList r.1), r.2)
    | '[' :: rest =>
      match skipSpace rest with
      | ']' :: rest => some (.array [], rest)
      | _ => (readElements fuel rest).map fun r => (.array r.1, r.2)
    | '\x7b' :: rest =>
      match skipSpace rest with
      | '\x7d' :: rest => some (ofMembers [], rest)
      | _ => (readMembers fuel rest).map fun r => (ofMembers r.1, r.2)
    | cs => readNumber number cs

/-- The elements of an array that has some, and what follows its bracket. -/
def readElements : Nat → List Char → Option (List Json × List Char)
  | 0, _ => none
  | fuel + 1, cs =>
    (readValue fuel cs).bind fun r =>
      match skipSpace r.2 with
      | ',' :: rest => (readElements fuel rest).map fun rs => (r.1 :: rs.1, rs.2)
      | ']' :: rest => some ([r.1], rest)
      | _ => none

/-- The members of an object that has some, and what follows its brace. -/
def readMembers : Nat → List Char → Option (List (String × Json) × List Char)
  | 0, _ => none
  | fuel + 1, cs =>
    (readKey (cs.length + 1) cs).bind fun k =>
      (readValue fuel k.2).bind fun r =>
        match skipSpace r.2 with
        | ',' :: rest => (readMembers fuel rest).map fun rs => ((k.1, r.1) :: rs.1, rs.2)
        | '\x7d' :: rest => some ([(k.1, r.1)], rest)
        | _ => none

end

/-- `JSON.parse(text)`; `none` if it throws. -/
def parse (text : String) : Option Json :=
  (readValue number (text.length + 1) text.toList).bind fun r =>
    if skipSpace r.2 = [] then some r.1 else none

end

/-! ## Values that can be held -/

section

variable (number : String → String)

mutual

/-- A value that JavaScript can hold: a number is printed as it reads, and an object
has its keys once each and in order. -/
def Held : Json → Prop
  | .null | .bool _ | .string _ => True
  | .number text => isNumber text.toList = true ∧ number text = text
  | .array xs => HeldAll xs
  | .object fields => (fields.map Prod.fst).Nodup ∧ enumerated fields = fields ∧ HeldFields fields

def HeldAll : List Json → Prop
  | [] => True
  | x :: xs => Held x ∧ HeldAll xs

def HeldFields : List (String × Json) → Prop
  | [] => True
  | f :: fields => Held f.2 ∧ HeldFields fields

end

end

/-- An object without array indices is enumerated as it was filled. -/
theorem enumerated_of_names {α : Type} {fields : List (String × α)}
    (h : ∀ key ∈ fields.map Prod.fst, arrayIndex? key = none) : enumerated fields = fields := by
  have hnone : ∀ f ∈ fields, arrayIndex? f.1 = none :=
    fun f hf => h f.1 (List.mem_map_of_mem hf)
  have hindices : fields.filter (fun f => (arrayIndex? f.1).isSome) = [] := by
    rw [List.filter_eq_nil_iff]
    intro f hf
    rw [hnone f hf]
    exact Bool.false_ne_true
  have hnames : fields.filter (fun f => (arrayIndex? f.1).isNone) = fields := by
    rw [List.filter_eq_self]
    intro f hf
    rw [hnone f hf]
    rfl
  rw [enumerated, hindices, hnames]
  rfl

mutual

/-- How deep the reading of a value goes, at most. -/
def weight : Json → Nat
  | .null | .bool _ | .number _ | .string _ => 1
  | .array xs => weightAll xs + 1
  | .object fields => weightFields fields + 1

def weightAll : List Json → Nat
  | [] => 0
  | x :: xs => weight x + weightAll xs + 1

def weightFields : List (String × Json) → Nat
  | [] => 0
  | f :: fields => weight f.2 + weightFields fields + 1

end

/-! ## The round trip of a token -/

theorem skipSpace_cons {c : Char} (h : isSpace c = false) (cs : List Char) :
    skipSpace (c :: cs) = c :: cs :=
  List.dropWhile_cons_of_neg (by rw [h]; exact Bool.false_ne_true)

theorem hex4_hexDigit : ∀ n < 32, hex4 '0' '0' (hexDigit (n / 16)) (hexDigit (n % 16)) = some n := by
  decide

/-- An escaped character is read as the character. -/
theorem readString_escapeChar (c : Char) (cs : List Char) (fuel : Nat) :
    readString (fuel + 1) (escapeChar c ++ cs) = putChar c (readString fuel cs) := by
  unfold escapeChar
  split
  next h => rw [h]; rfl
  split
  next h => rw [h]; rfl
  split
  next h => rw [char_eq_ofNat h]; rfl
  split
  next h => rw [char_eq_ofNat h]; rfl
  split
  next h => rw [char_eq_ofNat h]; rfl
  split
  next h => rw [char_eq_ofNat h]; rfl
  split
  next h => rw [char_eq_ofNat h]; rfl
  split
  next h =>
    -- a control character is no surrogate
    have hhigh : ¬(0xD800 ≤ c.toNat ∧ c.toNat ≤ 0xDBFF) := by omega
    have hunit : unitChar c.toNat = c := by
      rw [unitChar, if_neg (by omega), Char.ofNat_toNat]
    show (hex4 '0' '0' (hexDigit (c.toNat / 16)) (hexDigit (c.toNat % 16))).bind _ = _
    rw [hex4_hexDigit c.toNat h, Option.bind_some, if_neg hhigh, hunit]
    rfl
  next hquote hslash _ _ _ _ _ hlow =>
    rw [List.singleton_append, readString.eq_def]
    simp only [if_neg hquote, if_neg hslash, if_neg hlow]

/-- The characters between the quotes are read back, and no more. -/
theorem readString_flatMap (cs rest : List Char) : ∀ fuel, cs.length < fuel →
    readString fuel (cs.flatMap escapeChar ++ '"' :: rest) = some (cs, rest) := by
  induction cs with
  | nil =>
    intro fuel hfuel
    cases fuel with
    | zero => exact absurd hfuel (Nat.lt_irrefl 0)
    | succ fuel => rfl
  | cons c cs ih =>
    intro fuel hfuel
    cases fuel with
    | zero => exact absurd hfuel (Nat.not_lt_zero _)
    | succ fuel =>
      rw [List.length_cons] at hfuel
      rw [List.flatMap_cons, List.append_assoc, readString_escapeChar, ih fuel (by omega)]
      rfl

theorem length_le_flatMap (cs : List Char) : cs.length ≤ (cs.flatMap escapeChar).length := by
  induction cs with
  | nil => exact Nat.le_refl _
  | cons c cs ih =>
    have hone : 1 ≤ (escapeChar c).length := by
      unfold escapeChar
      repeat' split
      all_goals simp
    rw [List.flatMap_cons, List.length_append, List.length_cons]
    omega

/-- A quoted string is read back. -/
theorem readString_quote (s : String) (rest : List Char) {fuel : Nat}
    (hfuel : (s.toList.flatMap escapeChar ++ '"' :: rest).length < fuel) :
    readString fuel (s.toList.flatMap escapeChar ++ '"' :: rest) = some (s.toList, rest) := by
  refine readString_flatMap s.toList rest fuel ?_
  have hlen := length_le_flatMap s.toList
  rw [List.length_append] at hfuel
  omega

/-- A number ends before what is not part of it. -/
def Stops (rest : List Char) : Prop := ∀ c ∈ rest.head?, isNumberChar c = false

theorem isNumberChar_of_isDigit {c : Char} (h : c.isDigit = true) : isNumberChar c = true := by
  rw [isNumberChar, h]
  rfl

theorem all_of_isDigits {cs : List Char} (h : isDigits cs = true) : ∀ c ∈ cs, isNumberChar c = true := by
  rw [isDigits, Bool.and_eq_true, List.all_eq_true] at h
  exact fun c hc => isNumberChar_of_isDigit (h.2 c hc)

theorem all_of_isExponent {cs : List Char} (h : isExponent cs = true) :
    ∀ c ∈ cs, isNumberChar c = true := by
  cases cs with
  | nil => exact fun c hc => absurd hc List.not_mem_nil
  | cons e cs =>
    rw [isExponent, Bool.and_eq_true] at h
    obtain ⟨he, hdigits⟩ := h
    have hhead : isNumberChar e = true := by
      rw [Bool.or_eq_true, decide_eq_true_eq, decide_eq_true_eq] at he
      rcases he with rfl | rfl
      · rfl
      · rfl
    have htail : ∀ c ∈ cs, isNumberChar c = true := by
      unfold dropSign at hdigits
      split at hdigits
      next => exact List.forall_mem_cons.mpr ⟨rfl, all_of_isDigits hdigits⟩
      next => exact List.forall_mem_cons.mpr ⟨rfl, all_of_isDigits hdigits⟩
      next => exact all_of_isDigits hdigits
    exact List.forall_mem_cons.mpr ⟨hhead, htail⟩

/-- Digits, and what follows them. -/
theorem all_of_split {cs : List Char}
    (hdrop : ∀ c ∈ cs.dropWhile Char.isDigit, isNumberChar c = true) :
    ∀ c ∈ cs, isNumberChar c = true := by
  intro c hc
  rw [← List.takeWhile_append_dropWhile (p := Char.isDigit) (l := cs), List.mem_append] at hc
  rcases hc with hc | hc
  · exact isNumberChar_of_isDigit (List.mem_takeWhile_imp hc)
  · exact hdrop c hc

theorem all_of_isFraction {cs : List Char} (h : isFraction cs = true) :
    ∀ c ∈ cs, isNumberChar c = true := by
  unfold isFraction at h
  split at h
  next cs =>
    rw [Bool.and_eq_true] at h
    exact List.forall_mem_cons.mpr ⟨rfl, all_of_split (all_of_isExponent h.2)⟩
  next => exact all_of_isExponent h

theorem all_of_isUnsigned {cs : List Char} (h : isUnsigned cs = true) :
    ∀ c ∈ cs, isNumberChar c = true := by
  unfold isUnsigned at h
  split at h
  next => exact List.forall_mem_cons.mpr ⟨rfl, all_of_isFraction h⟩
  next =>
    rw [Bool.and_eq_true] at h
    exact all_of_split (all_of_isFraction h.2)

theorem all_of_isNumber {cs : List Char} (h : isNumber cs = true) :
    ∀ c ∈ cs, isNumberChar c = true := by
  unfold isNumber at h
  split at h
  next => exact List.forall_mem_cons.mpr ⟨rfl, all_of_isUnsigned h⟩
  next => exact all_of_isUnsigned h

theorem ne_nil_of_isNumber {cs : List Char} (h : isNumber cs = true) : cs ≠ [] := by
  intro heq
  obtain rfl := heq
  exact absurd h (by decide)

/-- A number is read back, up to what cannot be part of it. -/
theorem readNumber_append (number : String → String) {text : String}
    (htext : isNumber text.toList = true) (hnumber : number text = text) {rest : List Char}
    (hrest : Stops rest) : readNumber number (text.toList ++ rest) = some (.number text, rest) := by
  have hall := all_of_isNumber htext
  have hstop : rest.takeWhile isNumberChar = [] ∧ rest.dropWhile isNumberChar = rest := by
    cases rest with
    | nil => exact ⟨rfl, rfl⟩
    | cons c cs =>
      have hc : ¬isNumberChar c = true := by
        rw [hrest c rfl]
        exact Bool.false_ne_true
      exact ⟨List.takeWhile_cons_of_neg hc, List.dropWhile_cons_of_neg hc⟩
  unfold readNumber
  dsimp only
  rw [List.takeWhile_append_of_pos hall, List.dropWhile_append_of_pos hall, hstop.1, hstop.2,
    List.append_nil, if_pos htext, String.ofList_toList, hnumber]

/-! ## The round trip -/

/-- What separates the items of a list. -/
def separated (sep : List Char) : List (List Char) → List Char
  | [] => []
  | [x] => x
  | x :: y :: xs => x ++ sep ++ separated sep (y :: xs)

theorem toList_intercalate (xs : List String) :
    (",".intercalate xs).toList = separated [','] (xs.map String.toList) := by
  rw [String.toList_intercalate]
  have hsep : ∀ xs : List (List Char), [','].intercalate xs = separated [','] xs := by
    intro xs
    induction xs with
    | nil => rfl
    | cons x xs ih =>
      cases xs with
      | nil => simp [separated, List.intercalate]
      | cons y ys =>
        rw [separated, ← ih]
        simp [List.intercalate]
  exact hsep _

/-- The characters of an array. -/
theorem toList_array (xs : List Json) :
    (stringify (.array xs)).toList
      = '[' :: (separated [','] ((stringifyItems xs).map String.toList) ++ [']']) := by
  rw [stringify, String.toList_append, String.toList_append, toList_intercalate]
  rfl

/-- The characters of an object. -/
theorem toList_object (fields : List (String × Json)) :
    (stringify (.object fields)).toList
      = '\x7b' :: (separated [','] ((stringifyFields fields).map String.toList) ++ ['\x7d']) := by
  rw [stringify, String.toList_append, String.toList_append, toList_intercalate]
  rfl

/-- No text of a value is empty or begins with white space or a closing bracket. -/
theorem head_stringify (number : String → String) {v : Json} (hv : Held number v) :
    ∃ c cs, (stringify v).toList = c :: cs ∧ isSpace c = false ∧ c ≠ ']' := by
  cases v with
  | null => exact ⟨'n', _, rfl, rfl, by decide⟩
  | bool b =>
    cases b with
    | true => exact ⟨'t', _, rfl, rfl, by decide⟩
    | false => exact ⟨'f', _, rfl, rfl, by decide⟩
  | number text =>
    have hchars := all_of_isNumber hv.1
    rw [stringify]
    cases hcs : text.toList with
    | nil => exact absurd hcs (ne_nil_of_isNumber hv.1)
    | cons c cs =>
      have hc := hchars c (hcs ▸ List.mem_cons_self)
      refine ⟨c, cs, rfl, ?_, ?_⟩
      · by_contra hspace
        rw [Bool.not_eq_false, isSpace] at hspace
        simp only [Bool.or_eq_true, decide_eq_true_eq] at hspace
        rcases hspace with ((rfl | rfl) | rfl) | rfl
        all_goals exact absurd hc (by decide)
      · intro heq
        obtain rfl := heq
        exact absurd hc (by decide)
  | string s => exact ⟨'"', _, toList_quote s, rfl, by decide⟩
  | array xs => exact ⟨'[', _, toList_array xs, rfl, by decide⟩
  | object fields => exact ⟨'\x7b', _, toList_object fields, rfl, by decide⟩

/-- The text of an array that has elements begins with one of them. -/
theorem head_separated (number : String → String) {x : Json} (hx : Held number x)
    (xs : List Json) (rest : List Char) :
    ∃ c cs, separated [','] ((stringifyItems (x :: xs)).map String.toList) ++ rest = c :: cs ∧
      isSpace c = false ∧ c ≠ ']' := by
  obtain ⟨c, cs, heq, hspace, hclose⟩ := head_stringify number hx
  cases xs with
  | nil => exact ⟨c, _, by simp only [stringifyItems, List.map, separated, heq]; rfl, hspace, hclose⟩
  | cons y ys =>
    exact ⟨c, _, by simp only [stringifyItems, List.map, separated, heq]; rfl, hspace, hclose⟩

/-- The text of an object that has members begins with a key. -/
theorem head_separated_fields (f : String × Json) (fields : List (String × Json))
    (rest : List Char) :
    ∃ cs, separated [','] ((stringifyFields (f :: fields)).map String.toList) ++ rest
      = '"' :: cs := by
  have hkey : ∃ cs, (quote f.1 ++ ":" ++ stringify f.2).toList = '"' :: cs := by
    rw [String.toList_append, String.toList_append, toList_quote]
    exact ⟨_, rfl⟩
  obtain ⟨cs, heq⟩ := hkey
  cases fields with
  | nil => exact ⟨_, by simp only [stringifyFields, List.map, separated, heq]; rfl⟩
  | cons g gs => exact ⟨_, by simp only [stringifyFields, List.map, separated, heq]; rfl⟩

theorem stops_cons {c : Char} (h : isNumberChar c = false) (cs : List Char) : Stops (c :: cs) := by
  intro d hd
  rw [List.head?_cons, Option.mem_some_iff] at hd
  exact hd ▸ h

theorem readValue_number (number : String → String) {text : String}
    (htext : isNumber text.toList = true) (hnumber : number text = text) {rest : List Char}
    (hrest : Stops rest) (fuel : Nat) :
    readValue number (fuel + 1) (text.toList ++ rest) = some (.number text, rest) := by
  have hread := readNumber_append number htext hnumber hrest
  cases hcs : text.toList with
  | nil => exact absurd hcs (ne_nil_of_isNumber htext)
  | cons c cs =>
    obtain ⟨c', cs', heq, hspace, -⟩ := head_stringify number (v := .number text) ⟨htext, hnumber⟩
    rw [stringify, hcs, List.cons.injEq] at heq
    rw [← heq.1] at hspace
    have hc : isNumberChar c = true := all_of_isNumber htext c (hcs ▸ List.mem_cons_self)
    rw [hcs, List.cons_append] at hread
    rw [readValue, List.cons_append, skipSpace_cons hspace]
    split
    all_goals first
      | exact hread
      | (next h => rw [List.cons.injEq] at h; rw [h.1] at hc; exact absurd hc (by decide))

/-- The members of an object are assigned in order. -/
theorem foldl_assign (fields : List (String × Json)) :
    ∀ pre : List (String × Json), ((pre ++ fields).map Prod.fst).Nodup →
      fields.foldl assign pre = pre ++ fields := by
  induction fields with
  | nil =>
    intro pre _
    exact (List.append_nil pre).symm
  | cons f fields ih =>
    intro pre hnodup
    have hnew : (pre.any fun g => g.1 = f.1) = false := by
      rw [List.any_eq_false]
      intro g hg hkey
      rw [List.map_append, List.nodup_append] at hnodup
      exact hnodup.2.2 g.1 (List.mem_map_of_mem hg) f.1 (List.mem_map_of_mem List.mem_cons_self)
        (of_decide_eq_true hkey)
    have hassign : assign pre f = pre ++ [f] := by
      rw [assign, hnew]
      rfl
    rw [List.foldl_cons, hassign, ih, List.append_assoc, List.singleton_append]
    rw [List.append_assoc]
    exact hnodup

theorem ofMembers_held (number : String → String) {fields : List (String × Json)}
    (h : Held number (.object fields)) : ofMembers fields = .object fields := by
  rw [ofMembers, foldl_assign fields [] h.1, List.nil_append, h.2.1]

theorem readKey_quote (key : String) (rest : List Char) {fuel : Nat}
    (hfuel : ((quote key).toList ++ ':' :: rest).length < fuel) :
    readKey fuel ((quote key).toList ++ ':' :: rest) = some (key, rest) := by
  rw [toList_quote] at hfuel ⊢
  rw [List.cons_append, List.append_assoc] at hfuel ⊢
  have hread : readString fuel (key.toList.flatMap escapeChar ++ '"' :: ':' :: rest)
      = some (key.toList, ':' :: rest) := by
    refine readString_quote key _ ?_
    rw [List.length_cons] at hfuel
    exact Nat.lt_of_succ_lt hfuel
  unfold readKey
  rw [skipSpace_cons rfl]
  show (readString fuel (key.toList.flatMap escapeChar ++ '"' :: ':' :: rest)).bind _ = _
  rw [hread, Option.bind_some, skipSpace_cons rfl, String.ofList_toList]
  rfl

mutual

/-- A value is read back from its text. -/
theorem readValue_stringify (number : String → String) : ∀ (v : Json), Held number v →
    ∀ (rest : List Char), Stops rest → ∀ fuel, weight v ≤ fuel →
      readValue number fuel ((stringify v).toList ++ rest) = some (v, rest)
  | _, _, _, _, 0, hfuel => by
    have hpos : ∀ v : Json, 0 < weight v := by
      intro v
      cases v <;> exact Nat.succ_pos _
    exact absurd hfuel (Nat.not_le_of_gt (hpos _))
  | .null, _, rest, _, fuel + 1, _ => by
    rw [readValue]
    rfl
  | .bool b, _, rest, _, fuel + 1, _ => by
    rw [readValue]
    cases b with
    | true => rfl
    | false => rfl
  | .number text, hv, rest, hrest, fuel + 1, _ =>
    readValue_number number hv.1 hv.2 hrest fuel
  | .string s, _, rest, _, fuel + 1, _ => by
    have hread := readString_quote s rest (Nat.lt_succ_self _)
    have htext : (stringify (.string s)).toList ++ rest
        = '"' :: (s.toList.flatMap escapeChar ++ '"' :: rest) := by
      rw [stringify, toList_quote, List.cons_append, List.append_assoc]
      rfl
    rw [htext, readValue, skipSpace_cons rfl]
    refine (congrArg (Option.map fun r => (Json.string (String.ofList r.1), r.2)) hread).trans ?_
    rw [Option.map_some, String.ofList_toList]
  | .array [], _, rest, _, fuel + 1, _ => by
    rw [toList_array, readValue, List.cons_append, skipSpace_cons rfl]
    rfl
  | .array (x :: xs), hv, rest, _, fuel + 1, hfuel => by
    have hread := readElements_stringify number (x :: xs) (List.cons_ne_nil _ _) hv rest fuel
      (Nat.le_of_succ_le_succ hfuel)
    have htext : (stringify (.array (x :: xs))).toList ++ rest
        = '[' :: (separated [','] ((stringifyItems (x :: xs)).map String.toList) ++ ']' :: rest) := by
      rw [toList_array, List.cons_append, List.append_assoc]
      rfl
    obtain ⟨c, cs, hhead, hspace, hclose⟩ := head_separated number hv.1 xs (']' :: rest)
    rw [htext, readValue, skipSpace_cons rfl]
    rw [hhead] at hread ⊢
    show (match skipSpace (c :: cs) with
      | ']' :: rest => some (Json.array [], rest)
      | _ => (readElements number fuel (c :: cs)).map fun r : List Json × List Char =>
        (Json.array r.1, r.2)) = _
    rw [skipSpace_cons hspace]
    split
    next h =>
      rw [List.cons.injEq] at h
      exact absurd h.1 hclose
    next => rw [hread, Option.map_some]
  | .object [], _, rest, _, fuel + 1, _ => by
    rw [toList_object, readValue, List.cons_append, skipSpace_cons rfl]
    rfl
  | .object (f :: fields), hv, rest, _, fuel + 1, hfuel => by
    have hread := readMembers_stringify number (f :: fields) (List.cons_ne_nil _ _) hv.2.2 rest fuel
      (Nat.le_of_succ_le_succ hfuel)
    have htext : (stringify (.object (f :: fields))).toList ++ rest
        = '\x7b' :: (separated [','] ((stringifyFields (f :: fields)).map String.toList)
            ++ '\x7d' :: rest) := by
      rw [toList_object, List.cons_append, List.append_assoc]
      rfl
    obtain ⟨cs, hhead⟩ := head_separated_fields f fields ('\x7d' :: rest)
    rw [htext, readValue, skipSpace_cons rfl]
    rw [hhead] at hread ⊢
    refine (congrArg (Option.map fun r : List (String × Json) × List Char =>
      (ofMembers r.1, r.2)) hread).trans ?_
    rw [Option.map_some, ofMembers_held number hv]

/-- The elements of an array. -/
theorem readElements_stringify (number : String → String) : ∀ (xs : List Json), xs ≠ [] →
    HeldAll number xs → ∀ (rest : List Char) (fuel : Nat), weightAll xs ≤ fuel →
      readElements number fuel
        (separated [','] ((stringifyItems xs).map String.toList) ++ ']' :: rest) = some (xs, rest)
  | [], hne, _, _, _, _ => absurd rfl hne
  | _ :: _, _, _, _, 0, hfuel => absurd hfuel (Nat.not_succ_le_zero _)
  | [x], _, hxs, rest, fuel + 1, hfuel => by
    have hread := readValue_stringify number x hxs.1 (']' :: rest) (stops_cons rfl rest) fuel
      (by rw [weightAll, weightAll] at hfuel; omega)
    rw [readElements]
    show (readValue number fuel ((stringify x).toList ++ ']' :: rest)).bind _ = _
    rw [hread, Option.bind_some, skipSpace_cons rfl]
    rfl
  | x :: y :: ys, _, hxs, rest, fuel + 1, hfuel => by
    have hread := readValue_stringify number x hxs.1
      (',' :: (separated [','] ((stringifyItems (y :: ys)).map String.toList) ++ ']' :: rest))
      (stops_cons rfl _) fuel (by rw [weightAll] at hfuel; omega)
    have hrest := readElements_stringify number (y :: ys) (List.cons_ne_nil _ _) hxs.2 rest fuel
      (by rw [weightAll] at hfuel; omega)
    have htext : separated [','] ((stringifyItems (x :: y :: ys)).map String.toList) ++ ']' :: rest
        = (stringify x).toList ++
          ',' :: (separated [','] ((stringifyItems (y :: ys)).map String.toList) ++ ']' :: rest) := by
      simp [stringifyItems, separated]
    rw [readElements, htext, hread, Option.bind_some, skipSpace_cons rfl]
    exact congrArg (Option.map fun rs => (x :: rs.1, rs.2)) hrest

/-- The members of an object. -/
theorem readMembers_stringify (number : String → String) : ∀ (fields : List (String × Json)),
    fields ≠ [] → HeldFields number fields → ∀ (rest : List Char) (fuel : Nat),
      weightFields fields ≤ fuel →
      readMembers number fuel
        (separated [','] ((stringifyFields fields).map String.toList) ++ '\x7d' :: rest)
        = some (fields, rest)
  | [], hne, _, _, _, _ => absurd rfl hne
  | _ :: _, _, _, _, 0, hfuel => absurd hfuel (Nat.not_succ_le_zero _)
  | [(key, v)], _, hfields, rest, fuel + 1, hfuel => by
    have hread := readValue_stringify number v hfields.1 ('\x7d' :: rest) (stops_cons rfl rest) fuel
      (by rw [weightFields, weightFields] at hfuel; dsimp only at hfuel; omega)
    have htext : separated [','] ((stringifyFields [(key, v)]).map String.toList) ++ '\x7d' :: rest
        = (quote key).toList ++ ':' :: ((stringify v).toList ++ '\x7d' :: rest) := by
      simp [stringifyFields, separated]
    rw [readMembers, htext, readKey_quote key _ (Nat.lt_succ_self _), Option.bind_some, hread,
      Option.bind_some, skipSpace_cons rfl]
    rfl
  | (key, v) :: g :: gs, _, hfields, rest, fuel + 1, hfuel => by
    have hread := readValue_stringify number v hfields.1
      (',' :: (separated [','] ((stringifyFields (g :: gs)).map String.toList) ++ '\x7d' :: rest))
      (stops_cons rfl _) fuel (by rw [weightFields] at hfuel; dsimp only at hfuel; omega)
    have hrest := readMembers_stringify number (g :: gs) (List.cons_ne_nil _ _) hfields.2 rest fuel
      (by rw [weightFields] at hfuel; omega)
    have htext :
        separated [','] ((stringifyFields ((key, v) :: g :: gs)).map String.toList) ++ '\x7d' :: rest
        = (quote key).toList ++ ':' :: ((stringify v).toList ++
          ',' :: (separated [','] ((stringifyFields (g :: gs)).map String.toList)
            ++ '\x7d' :: rest)) := by
      simp [stringifyFields, separated]
    rw [readMembers, htext, readKey_quote key _ (Nat.lt_succ_self _), Option.bind_some, hread,
      Option.bind_some, skipSpace_cons rfl]
    exact congrArg (Option.map fun rs => ((key, v) :: rs.1, rs.2)) hrest

end

mutual

/-- The text of a value is long enough to read it. -/
theorem weight_le (number : String → String) : ∀ v : Json, Held number v →
    weight v ≤ (stringify v).toList.length
  | .null, _ => by decide
  | .bool true, _ => by decide
  | .bool false, _ => by decide
  | .number text, hv => List.length_pos_iff.mpr (ne_nil_of_isNumber hv.1)
  | .string s, _ => by
    rw [stringify, toList_quote, List.length_cons]
    exact Nat.succ_pos _
  | .array xs, hv => by
    have hxs := weightAll_le number xs hv
    rw [toList_array, List.length_cons, List.length_append, weight]
    exact Nat.succ_le_succ hxs
  | .object fields, hv => by
    have hfields := weightFields_le number fields hv.2.2
    rw [toList_object, List.length_cons, List.length_append, weight]
    exact Nat.succ_le_succ hfields

theorem weightAll_le (number : String → String) : ∀ xs : List Json, HeldAll number xs →
    weightAll xs ≤ (separated [','] ((stringifyItems xs).map String.toList)).length + 1
  | [], _ => Nat.zero_le _
  | [x], hxs => by
    have hx := weight_le number x hxs.1
    rw [weightAll, weightAll]
    exact Nat.succ_le_succ hx
  | x :: y :: ys, hxs => by
    have hx := weight_le number x hxs.1
    have hys := weightAll_le number (y :: ys) hxs.2
    rw [weightAll]
    simp only [stringifyItems, List.map_cons, separated, List.length_append, List.length_singleton]
      at hys ⊢
    omega

theorem weightFields_le (number : String → String) : ∀ fields : List (String × Json),
    HeldFields number fields →
      weightFields fields ≤ (separated [','] ((stringifyFields fields).map String.toList)).length + 1
  | [], _ => Nat.zero_le _
  | [(key, v)], hfields => by
    have hv := weight_le number v hfields.1
    rw [weightFields, weightFields]
    simp only [stringifyFields, List.map_cons, List.map_nil, separated, String.toList_append,
      List.length_append]
    omega
  | (key, v) :: g :: gs, hfields => by
    have hv := weight_le number v hfields.1
    have hgs := weightFields_le number (g :: gs) hfields.2
    rw [weightFields]
    simp only [stringifyFields, List.map_cons, separated, String.toList_append, List.length_append,
      List.length_singleton] at hgs ⊢
    omega

end

/-- What `JSON.stringify` wrote of a value that can be held, `JSON.parse` reads back. -/
theorem parse_stringify (number : String → String) {v : Json} (hv : Held number v) :
    parse number (stringify v) = some v := by
  have hread := readValue_stringify number v hv [] (fun c hc => nomatch hc)
    ((stringify v).length + 1) (Nat.le_succ_of_le (weight_le number v hv))
  rw [List.append_nil] at hread
  rw [parse, hread, Option.bind_some]
  rfl

end Json

end Js
