import Kovael.Js.Base64

/-!
# UTF-8

`Buffer.from(s, 'utf8')` and `buffer.toString('utf8')`, with the round trip
`decode_encode`. A byte that no sequence can hold ends the sequence before it,
and each sequence that is cut off or ill-formed reads as one U+FFFD; a decoder
that refuses such bytes is `decode?`.
-/

namespace Js

namespace Utf8

open Base64 (Bytes)

/-- A sequence that has begun: the bytes it still wants, the least and the greatest that
the next may be, and the bits so far. -/
structure Pending where
  owed : Nat
  low : Nat
  high : Nat
  bits : Nat
  deriving DecidableEq, Repr

/-- The first byte of a sequence: what it reads as, or what has begun. `none` is an error. -/
def first (b : Nat) : List (Option Char) × Option Pending :=
  if b < 0x80 then ([some (Char.ofNat b)], none)
  else if 0xC2 ≤ b ∧ b ≤ 0xDF then ([], some ⟨1, 0x80, 0xBF, b - 0xC0⟩)
  else if 0xE0 ≤ b ∧ b ≤ 0xEF then
    ([], some ⟨2, if b = 0xE0 then 0xA0 else 0x80, if b = 0xED then 0x9F else 0xBF, b - 0xE0⟩)
  else if 0xF0 ≤ b ∧ b ≤ 0xF4 then
    ([], some ⟨3, if b = 0xF0 then 0x90 else 0x80, if b = 0xF4 then 0x8F else 0xBF, b - 0xF0⟩)
  else ([none], none)

/-- One more byte. -/
def step (q : Option Pending) (b : Nat) : List (Option Char) × Option Pending :=
  match q with
  | none => first b
  | some p =>
    if p.low ≤ b ∧ b ≤ p.high then
      let bits := p.bits * 64 + (b - 0x80)
      if p.owed = 1 then ([some (Char.ofNat bits)], none)
      else ([], some ⟨p.owed - 1, 0x80, 0xBF, bits⟩)
    -- the byte may begin a sequence of its own
    else (none :: (first b).1, (first b).2)

/-- The characters of some bytes, with `none` for each error. -/
def items : Option Pending → Bytes → List (Option Char)
  | none, [] => []
  | some _, [] => [none]
  | q, b :: bs => (step q b.toNat).1 ++ items (step q b.toNat).2 bs

/-- `buffer.toString('utf8')`. -/
def decode (bytes : Bytes) : String :=
  String.ofList ((items none bytes).map fun c => c.getD (Char.ofNat 0xFFFD))

/-- The characters, where there is no error. -/
def decode? (bytes : Bytes) : Option String := ((items none bytes).mapM id).map String.ofList

/-- `Buffer.from(s, 'utf8')`. -/
def encode (s : String) : Bytes := s.toList.flatMap String.utf8EncodeChar

/-- A text with its percent-encoded bytes apart; `none` where a `%` encodes none. -/
def uriItems : List Char → Option (List (Char ⊕ UInt8))
  | [] => some []
  | '%' :: a :: b :: rest =>
    match hexVal a, hexVal b with
    | some h, some l => (uriItems rest).map (.inr (UInt8.ofNat (16 * h + l)) :: ·)
    | _, _ => none
  | c :: rest => if c = '%' then none else (uriItems rest).map (.inl c :: ·)

/-- The characters that plain characters and encoded bytes stand for; `none` on an error. -/
def uriChars : Option Pending → List (Char ⊕ UInt8) → Option (List Char)
  | none, [] => some []
  | some _, [] => none
  | none, .inl c :: rest => (uriChars none rest).map (c :: ·)
  | some _, .inl _ :: _ => none
  | q, .inr b :: rest =>
    ((step q b.toNat).1.mapM id).bind fun cs => (uriChars (step q b.toNat).2 rest).map (cs ++ ·)

/-- `decodeURIComponent(s)`; `none` if it throws. -/
def decodeURIComponent (s : String) : Option String :=
  ((uriItems s.toList).bind (uriChars none)).map String.ofList

/-! ## The round trip -/

theorem items_cons (q : Option Pending) (b : UInt8) (bs : Bytes) :
    items q (b :: bs) = (step q b.toNat).1 ++ items (step q b.toNat).2 bs := by
  cases q with
  | none => rfl
  | some p => rfl

theorem first_one {b : Nat} (h : b < 0x80) : first b = ([some (Char.ofNat b)], none) := if_pos h

theorem first_two {b : Nat} (h : 0xC2 ≤ b ∧ b ≤ 0xDF) :
    first b = ([], some ⟨1, 0x80, 0xBF, b - 0xC0⟩) := by
  rw [first, if_neg (by omega), if_pos h]

theorem first_three {b : Nat} (h : 0xE0 ≤ b ∧ b ≤ 0xEF) :
    first b = ([], some ⟨2, if b = 0xE0 then 0xA0 else 0x80, if b = 0xED then 0x9F else 0xBF,
      b - 0xE0⟩) := by
  rw [first, if_neg (by omega), if_neg (by omega), if_pos h]

theorem first_four {b : Nat} (h : 0xF0 ≤ b ∧ b ≤ 0xF4) :
    first b = ([], some ⟨3, if b = 0xF0 then 0x90 else 0x80, if b = 0xF4 then 0x8F else 0xBF,
      b - 0xF0⟩) := by
  rw [first, if_neg (by omega), if_neg (by omega), if_neg (by omega), if_pos h]

theorem step_more {p : Pending} {b : Nat} (howed : p.owed ≠ 1) (h : p.low ≤ b ∧ b ≤ p.high) :
    step (some p) b = ([], some ⟨p.owed - 1, 0x80, 0xBF, p.bits * 64 + (b - 0x80)⟩) := by
  rw [step, if_pos h, if_neg howed]

theorem step_last {p : Pending} {b : Nat} (howed : p.owed = 1) (h : p.low ≤ b ∧ b ≤ p.high) :
    step (some p) b = ([some (Char.ofNat (p.bits * 64 + (b - 0x80)))], none) := by
  rw [step, if_pos h, if_pos howed]

theorem toNat_ofNat {n : Nat} (h : n < 256) : (UInt8.ofNat n).toNat = n := by
  rw [UInt8.toNat_ofNat', Nat.mod_eq_of_lt h]

/-- The bytes of a character are read as the character. -/
theorem items_encodeChar (c : Char) (rest : Bytes) :
    items none (String.utf8EncodeChar c ++ rest) = some c :: items none rest := by
  have hvalid : c.val.toNat < 0xD800 ∨ 0xDFFF < c.val.toNat ∧ c.val.toNat < 0x110000 := c.valid
  have hc : Char.ofNat c.val.toNat = c := Char.ofNat_toNat c
  unfold String.utf8EncodeChar
  dsimp only
  generalize c.val.toNat = v at hvalid hc ⊢
  split
  next h =>
    rw [List.cons_append, List.nil_append, items_cons, toNat_ofNat (by omega), step,
      first_one (by omega), hc]
    rfl
  split
  next h1 h2 =>
    have hbits : (v / 64 % 0x20 + 0xC0 - 0xC0) * 64 + (v % 0x40 + 0x80 - 0x80) = v := by omega
    rw [List.cons_append, List.cons_append, List.nil_append, items_cons, items_cons,
      toNat_ofNat (by omega), toNat_ofNat (by omega), step, first_two (by omega),
      step_last rfl (by dsimp only; omega), hbits, hc]
    rfl
  split
  next h1 h2 h3 =>
    have hbits : ((v / 4096 % 0x10 + 0xE0 - 0xE0) * 64 + (v / 64 % 0x40 + 0x80 - 0x80)) * 64
        + (v % 0x40 + 0x80 - 0x80) = v := by omega
    rw [List.cons_append, List.cons_append, List.cons_append, List.nil_append, items_cons,
      items_cons, items_cons, toNat_ofNat (by omega), toNat_ofNat (by omega),
      toNat_ofNat (by omega), step, first_three (by omega),
      step_more (by dsimp only; omega) (by dsimp only; split <;> split <;> omega),
      step_last rfl (by dsimp only; omega), hbits, hc]
    rfl
  next h1 h2 h3 =>
    have hbits : (((v / 262144 % 0x08 + 0xF0 - 0xF0) * 64 + (v / 4096 % 0x40 + 0x80 - 0x80)) * 64
        + (v / 64 % 0x40 + 0x80 - 0x80)) * 64 + (v % 0x40 + 0x80 - 0x80) = v := by omega
    rw [List.cons_append, List.cons_append, List.cons_append, List.cons_append, List.nil_append,
      items_cons, items_cons, items_cons, items_cons, toNat_ofNat (by omega),
      toNat_ofNat (by omega), toNat_ofNat (by omega), toNat_ofNat (by omega), step,
      first_four (by omega),
      step_more (by dsimp only; omega) (by dsimp only; split <;> split <;> omega),
      step_more (by dsimp only; omega) (by dsimp only; omega),
      step_last rfl (by dsimp only; omega), hbits, hc]
    rfl

theorem items_encode (s : String) : items none (encode s) = s.toList.map some := by
  rw [encode]
  induction s.toList with
  | nil => rfl
  | cons c cs ih => rw [List.flatMap_cons, items_encodeChar, ih, List.map_cons]

/-- What was encoded is decoded. -/
theorem decode_encode (s : String) : decode (encode s) = s := by
  rw [decode, items_encode, List.map_map]
  show String.ofList (s.toList.map id) = s
  rw [List.map_id, String.ofList_toList]

end Utf8

end Js
