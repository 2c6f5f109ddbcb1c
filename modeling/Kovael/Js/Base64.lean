import Kovael.Js.Json

/-!
# `base64url` of a `Buffer`

`Buffer.from(s, 'base64url')` and `buffer.toString('base64url')`, with the round
trip `decode_encode`. The decoder takes either alphabet, ends at the first `=`
and leaves out what is in no alphabet, so many texts decode to the same bytes;
it looks at the low byte of each UTF-16 unit only.
-/

namespace Js

namespace Base64

/-- A byte string. -/
abbrev Bytes := List UInt8

/-- The digit of a number below 64. -/
def digit (n : Nat) : Char :=
  if n < 26 then Char.ofNat (65 + n)
  else if n < 52 then Char.ofNat (71 + n)
  else if n < 62 then Char.ofNat (n - 4)
  else if n = 62 then '-'
  else '_'

/-- The number of a digit, in either alphabet. -/
def digit? (u : Nat) : Option Nat :=
  if 65 ≤ u ∧ u ≤ 90 then some (u - 65)
  else if 97 ≤ u ∧ u ≤ 122 then some (u - 71)
  else if 48 ≤ u ∧ u ≤ 57 then some (u + 4)
  else if u = 43 ∨ u = 45 then some 62
  else if u = 47 ∨ u = 95 then some 63
  else none

/-- The bytes, six bits at a time. -/
def split : Bytes → List Nat
  | [] => []
  | [a] => [a.toNat / 4, a.toNat % 4 * 16]
  | [a, b] => [a.toNat / 4, a.toNat % 4 * 16 + b.toNat / 16, b.toNat % 16 * 4]
  | a :: b :: c :: rest =>
    a.toNat / 4 :: (a.toNat % 4 * 16 + b.toNat / 16) :: (b.toNat % 16 * 4 + c.toNat / 64) ::
      c.toNat % 64 :: split rest

/-- Six bits at a time, back to bytes; the bits of a byte that is not whole are dropped. -/
def join : List Nat → Bytes
  | a :: b :: c :: d :: rest =>
    UInt8.ofNat (a * 4 + b / 16) :: UInt8.ofNat (b % 16 * 16 + c / 4) ::
      UInt8.ofNat (c % 4 * 64 + d) :: join rest
  | [a, b, c] => [UInt8.ofNat (a * 4 + b / 16), UInt8.ofNat (b % 16 * 16 + c / 4)]
  | [a, b] => [UInt8.ofNat (a * 4 + b / 16)]
  | _ => []

/-- `buffer.toString('base64url')`. -/
def encode (bytes : Bytes) : String := String.ofList ((split bytes).map digit)

/-- `Buffer.from(s, 'base64url')`. -/
def decode (s : String) : Bytes :=
  join ((((units s).map (· % 256)).takeWhile (· ≠ 61)).filterMap digit?)

/-! ## The round trip -/

theorem digit?_digit : ∀ n < 64, digit? (digit n).toNat = some n := by decide

theorem digit_toNat : ∀ n < 64, (digit n).toNat < 128 ∧ (digit n).toNat ≠ 61 := by decide

theorem units_ascii (cs : List Char) (h : ∀ c ∈ cs, c.toNat < 128) :
    units (String.ofList cs) = cs.map Char.toNat := by
  rw [units, String.toList_ofList]
  induction cs with
  | nil => rfl
  | cons c cs ih =>
    have hc : c.toNat < 0x10000 := Nat.lt_trans (h c List.mem_cons_self) (by decide)
    rw [List.flatMap_cons, if_pos hc, ih fun d hd => h d (List.mem_cons_of_mem c hd)]
    rfl

/-- The digits are read back as their numbers. -/
theorem digits_read (ns : List Nat) (h : ∀ n ∈ ns, n < 64) :
    ((((units (String.ofList (ns.map digit))).map (· % 256)).takeWhile (· ≠ 61)).filterMap digit?)
      = ns := by
  have hascii : ∀ c ∈ ns.map digit, c.toNat < 128 := by
    intro c hc
    obtain ⟨n, hn, rfl⟩ := List.mem_map.mp hc
    exact (digit_toNat n (h n hn)).1
  rw [units_ascii _ hascii]
  induction ns with
  | nil => rfl
  | cons n ns ih =>
    obtain ⟨hlow, hpad⟩ := digit_toNat n (h n List.mem_cons_self)
    have hmod : (digit n).toNat % 256 = (digit n).toNat := Nat.mod_eq_of_lt (by omega)
    have hrest := ih (fun m hm => h m (List.mem_cons_of_mem n hm))
      fun c hc => hascii c (List.mem_cons_of_mem _ hc)
    have hkept : decide ((digit n).toNat ≠ 61) = true := decide_eq_true hpad
    rw [List.map_cons, List.map_cons, List.map_cons, hmod,
      List.takeWhile_cons_of_pos (p := fun u => decide (u ≠ 61)) hkept,
      List.filterMap_cons_some (digit?_digit n (h n List.mem_cons_self)), hrest]

theorem split_lt : ∀ (bytes : Bytes), ∀ n ∈ split bytes, n < 64
  | [], n, hn => absurd hn List.not_mem_nil
  | [a], n, hn => by
    have ha := a.toNat_lt
    simp only [split, List.mem_cons, List.not_mem_nil, or_false] at hn
    omega
  | [a, b], n, hn => by
    have ha := a.toNat_lt
    have hb := b.toNat_lt
    simp only [split, List.mem_cons, List.not_mem_nil, or_false] at hn
    omega
  | a :: b :: c :: rest, n, hn => by
    have ha := a.toNat_lt
    have hb := b.toNat_lt
    have hc := c.toNat_lt
    simp only [split, List.mem_cons] at hn
    rcases hn with rfl | rfl | rfl | rfl | hn
    · omega
    · omega
    · omega
    · omega
    · exact split_lt rest n hn

theorem byte_of_eq {a : UInt8} {n : Nat} (h : n = a.toNat) : UInt8.ofNat n = a := by
  rw [h, UInt8.ofNat_toNat]

theorem join_split : ∀ bytes : Bytes, join (split bytes) = bytes
  | [] => rfl
  | [a] => by
    rw [split, join, byte_of_eq (a := a) (by omega)]
  | [a, b] => by
    have hb := b.toNat_lt
    rw [split, join, byte_of_eq (a := a) (by omega), byte_of_eq (a := b) (by omega)]
  | a :: b :: c :: rest => by
    have hb := b.toNat_lt
    have hc := c.toNat_lt
    rw [split, join, byte_of_eq (a := a) (by omega), byte_of_eq (a := b) (by omega),
      byte_of_eq (a := c) (by omega), join_split rest]

/-- What was encoded is decoded. -/
theorem decode_encode (bytes : Bytes) : decode (encode bytes) = bytes := by
  rw [decode, encode, digits_read _ (split_lt bytes), join_split]

/-- The text of some bytes is not empty. -/
theorem encode_ne_empty {bytes : Bytes} (h : bytes ≠ []) : encode bytes ≠ "" := by
  intro hempty
  have hdecode := decode_encode bytes
  rw [hempty] at hdecode
  exact h hdecode.symm

end Base64

end Js
