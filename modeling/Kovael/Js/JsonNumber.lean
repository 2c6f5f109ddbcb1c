import Kovael.Js.JsonText
import Kovael.Js.Number

/-!
# The numbers that JSON texts print

`numberValue` is the number that a printed number stands for: its decimal value,
where the JavaScript number is the nearest double. Comparisons with an integer
that is a double come out the same.
-/

namespace Js

namespace Json

/-- The digits after a decimal point, and what follows them. -/
def fractionDigits : List Char → List Char × List Char
  | '.' :: cs => (cs.takeWhile Char.isDigit, cs.dropWhile Char.isDigit)
  | cs => ([], cs)

/-- What an exponent adds up to. -/
def exponentValue : List Char → Int
  | _ :: '-' :: ds => -(Nat.ofDigitChars 10 ds 0 : Int)
  | _ :: ds => (Nat.ofDigitChars 10 (dropSign ds) 0 : Int)
  | [] => 0

/-- The value of a number without a sign. -/
def unsignedValue (cs : List Char) : ℚ :=
  let whole := cs.takeWhile Char.isDigit
  let fraction := fractionDigits (cs.dropWhile Char.isDigit)
  (Nat.ofDigitChars 10 (whole ++ fraction.1) 0 : ℚ) *
    10 ^ (exponentValue fraction.2 - fraction.1.length)

/-- The number that a text without a sign prints. -/
def unsignedNumber (cs : List Char) : Number :=
  if cs = "Infinity".toList then .posInf
  else if isUnsigned cs then .fin (unsignedValue cs)
  else .nan

/-- The number that a text prints. -/
def numberValue (text : String) : Number :=
  match text.toList with
  | '-' :: cs => (unsignedNumber cs).neg
  | cs => unsignedNumber cs

/-- `Number(value)`, where `ofText` is `Number` of a string; `none` if it throws. -/
def toNumber? (ofText : String → Number) : Option Json → Option Number
  | none => some .nan
  | some .null => some (.ofNat 0)
  | some (.bool b) => some (.ofNat (if b then 1 else 0))
  | some (.number text) => some (numberValue text)
  | some value => value.toText?.map ofText

/-- What is relied on of `String(Number(text))`: integers that are doubles print as they
are written, and no number prints a line break. -/
structure Prints (number : String → String) : Prop where
  integer : ∀ n : Int, n.natAbs ≤ 2 ^ 53 → number (toString n) = toString n
  line : ∀ text, isNumber text.toList = true → '\n' ∉ (number text).toList

/-- Texts that are printed as they are read. -/
theorem prints_id : Prints id where
  integer _ _ := rfl
  line _ htext hline := absurd (all_of_isNumber htext '\n' hline) (by decide)

/-! ## Integers -/

theorem all_digits (n : Nat) : ∀ c ∈ Nat.toDigits 10 n, c.isDigit = true :=
  fun _ hc => Nat.isDigit_of_mem_toDigits (by decide) (by decide) hc

/-- Only zero is printed with a leading zero. -/
theorem toDigits_head (n : Nat) : ∀ cs, Nat.toDigits 10 n = '0' :: cs → cs = [] := by
  induction n using Nat.strongRecOn with
  | ind n ih =>
    intro cs hcs
    by_cases h : n < 10
    · rw [Nat.toDigits_of_lt_base h] at hcs
      rw [List.cons.injEq] at hcs
      exact hcs.2.symm
    · rw [Nat.toDigits_of_base_le (by decide) (by omega)] at hcs
      obtain ⟨c, ds, hds⟩ := List.exists_cons_of_ne_nil (Nat.toDigits_ne_nil (n := n / 10) (b := 10))
      rw [hds, List.cons_append, List.cons.injEq] at hcs
      have hnil := ih (n / 10) (by omega) ds (by rw [hds, hcs.1])
      have hzero : n / 10 = 0 := by
        have hval := Nat.ofDigitChars_ten_toDigits (n := n / 10)
        rw [hds, hcs.1, hnil] at hval
        exact hval.symm
      omega

theorem isUnsigned_toDigits (n : Nat) : isUnsigned (Nat.toDigits 10 n) = true := by
  have hall := all_digits n
  have hhead := toDigits_head n
  have hne := Nat.toDigits_ne_nil (n := n) (b := 10)
  generalize Nat.toDigits 10 n = cs at hall hhead hne
  have htake : cs.takeWhile Char.isDigit = cs := List.takeWhile_eq_self_iff.mpr hall
  have hdrop : cs.dropWhile Char.isDigit = [] := List.dropWhile_eq_nil_iff.mpr hall
  unfold isUnsigned
  split
  next cs => rw [hhead cs rfl]; rfl
  next =>
    rw [htake, hdrop, isDigits, List.all_eq_true.mpr hall, Bool.and_true, List.isEmpty_eq_false_iff.mpr hne]
    rfl

theorem unsignedNumber_toDigits (n : Nat) : unsignedNumber (Nat.toDigits 10 n) = .fin n := by
  have hall := all_digits n
  have htake : (Nat.toDigits 10 n).takeWhile Char.isDigit = Nat.toDigits 10 n :=
    List.takeWhile_eq_self_iff.mpr hall
  have hdrop : (Nat.toDigits 10 n).dropWhile Char.isDigit = [] := List.dropWhile_eq_nil_iff.mpr hall
  have hinf : Nat.toDigits 10 n ≠ "Infinity".toList := by
    intro h
    have hI := hall 'I' (by rw [h]; decide)
    exact absurd hI (by decide)
  rw [unsignedNumber, if_neg hinf, if_pos (isUnsigned_toDigits n), unsignedValue, htake, hdrop]
  show Number.fin ((Nat.ofDigitChars 10 (Nat.toDigits 10 n ++ []) 0 : ℚ) * 10 ^ ((0 : Int) - 0)) = _
  rw [List.append_nil, Nat.ofDigitChars_ten_toDigits, sub_zero, zpow_zero, mul_one]

theorem toList_toString_ofNat (n : Nat) : (toString (n : Int)).toList = Nat.toDigits 10 n :=
  Nat.toList_repr

theorem toList_toString_negSucc (n : Nat) :
    (toString (Int.negSucc n)).toList = '-' :: Nat.toDigits 10 (n + 1) := by
  show ("-" ++ Nat.repr (n + 1)).toList = _
  rw [String.toList_append, Nat.toList_repr]
  rfl

/-- A text of digits does not begin with a sign. -/
theorem digits_ne_sign {n : Nat} {cs : List Char} : Nat.toDigits 10 n ≠ '-' :: cs := by
  intro h
  have hsign := all_digits n '-' (by rw [h]; exact List.mem_cons_self)
  exact absurd hsign (by decide)

theorem isNumber_toString (n : Int) : isNumber (toString n).toList = true := by
  cases n with
  | ofNat n =>
    show isNumber (toString (n : Int)).toList = true
    rw [toList_toString_ofNat]
    unfold isNumber
    split
    next heq => exact absurd heq digits_ne_sign
    next => exact isUnsigned_toDigits n
  | negSucc n =>
    rw [toList_toString_negSucc]
    exact isUnsigned_toDigits (n + 1)

/-- An integer is the number that its text prints. -/
theorem numberValue_toString (n : Int) : numberValue (toString n) = Number.ofInt n := by
  cases n with
  | ofNat n =>
    show numberValue (toString (n : Int)) = _
    unfold numberValue
    rw [toList_toString_ofNat]
    split
    next heq => exact absurd heq digits_ne_sign
    next => rw [unsignedNumber_toDigits]; rfl
  | negSucc n =>
    unfold numberValue
    rw [toList_toString_negSucc]
    show (unsignedNumber (Nat.toDigits 10 (n + 1))).neg = _
    rw [unsignedNumber_toDigits]
    show Number.fin (-((n + 1 : Nat) : ℚ)) = Number.fin ((Int.negSucc n : Int) : ℚ)
    rw [Int.cast_negSucc]

/-- An integer that is a double is a number that can be held. -/
theorem held_ofInt {number : String → String} (hnumber : Prints number) {n : Int}
    (hn : n.natAbs ≤ 2 ^ 53) : Held number (ofInt n) :=
  ⟨isNumber_toString n, hnumber.integer n hn⟩

/-! ## The numbers of a text -/

section

variable {number : String → String}

/-- A number that was read was printed. -/
theorem readValue_isNumber : ∀ {fuel : Nat} {cs rest : List Char} {t : String},
    readValue number fuel cs = some (.number t, rest) →
      ∃ text, isNumber text.toList = true ∧ t = number text
  | 0, _, _, _, h => absurd h (by rw [readValue]; exact Option.some_ne_none _ ∘ Eq.symm)
  | fuel + 1, cs, rest, t, h => by
    rw [readValue] at h
    split at h
    next => exact absurd (Prod.mk.inj (Option.some.inj h)).1 (by simp)
    next => exact absurd (Prod.mk.inj (Option.some.inj h)).1 (by simp)
    next => exact absurd (Prod.mk.inj (Option.some.inj h)).1 (by simp)
    next =>
      obtain ⟨r, -, h⟩ := Option.map_eq_some_iff.mp h
      exact absurd (Prod.mk.inj h).1 (by simp)
    next =>
      split at h
      next => exact absurd (Prod.mk.inj (Option.some.inj h)).1 (by simp)
      next =>
        obtain ⟨r, -, h⟩ := Option.map_eq_some_iff.mp h
        exact absurd (Prod.mk.inj h).1 (by simp)
    next =>
      split at h
      next => exact absurd (Prod.mk.inj (Option.some.inj h)).1 (by simp [ofMembers])
      next =>
        obtain ⟨r, -, h⟩ := Option.map_eq_some_iff.mp h
        exact absurd (Prod.mk.inj h).1 (by simp [ofMembers])
    next =>
      unfold readNumber at h
      dsimp only at h
      split at h
      next hnumber =>
        have ht := Json.number.inj (Prod.mk.inj (Option.some.inj h)).1
        exact ⟨String.ofList _, by rw [String.toList_ofList]; exact hnumber, ht.symm⟩
      next => exact absurd h (by simp)

/-- A member that was read has a value that was read. -/
theorem mem_readMembers : ∀ {fuel : Nat} {cs rest : List Char} {members : List (String × Json)},
    readMembers number fuel cs = some (members, rest) → ∀ m ∈ members,
      ∃ fuel cs rest, readValue number fuel cs = some (m.2, rest)
  | 0, _, _, _, h => absurd h (by rw [readMembers]; exact Option.some_ne_none _ ∘ Eq.symm)
  | fuel + 1, cs, rest, members, h => by
    intro m hm
    rw [readMembers] at h
    obtain ⟨k, -, h⟩ := Option.bind_eq_some_iff.mp h
    obtain ⟨r, hr, h⟩ := Option.bind_eq_some_iff.mp h
    have hhead : m = (k.1, r.1) → ∃ fuel cs rest, readValue number fuel cs = some (m.2, rest) := by
      intro heq
      obtain rfl := heq
      exact ⟨fuel, k.2, r.2, hr⟩
    split at h
    next =>
      obtain ⟨rs, hrs, h⟩ := Option.map_eq_some_iff.mp h
      rw [← (Prod.mk.inj h).1, List.mem_cons] at hm
      rcases hm with hm | hm
      · exact hhead hm
      · exact mem_readMembers hrs m hm
    next =>
      rw [← (Prod.mk.inj (Option.some.inj h)).1, List.mem_singleton] at hm
      exact hhead hm
    next => exact absurd h (by simp)

theorem mem_assign {fields : List (String × Json)} {f m : String × Json}
    (h : m ∈ assign fields f) : m ∈ fields ∨ m = f := by
  unfold assign at h
  split at h
  next =>
    obtain ⟨g, hg, hm⟩ := List.mem_map.mp h
    split at hm
    next => exact Or.inr hm.symm
    next => exact Or.inl (hm ▸ hg)
  next =>
    rcases List.mem_append.mp h with h | h
    · exact Or.inl h
    · exact Or.inr (List.mem_singleton.mp h)

theorem mem_foldl_assign {m : String × Json} : ∀ {members fields : List (String × Json)},
    m ∈ members.foldl assign fields → m ∈ fields ∨ m ∈ members
  | [], _, h => Or.inl h
  | f :: members, fields, h => by
    have hrest : m ∈ members.foldl assign (assign fields f) := h
    rcases mem_foldl_assign hrest with h | h
    · rcases mem_assign h with h | h
      · exact Or.inl h
      · exact Or.inr (h ▸ List.mem_cons_self)
    · exact Or.inr (List.mem_cons_of_mem f h)

theorem mem_of_mem_enumerated {α : Type} {fields : List (String × α)} {m : String × α}
    (h : m ∈ enumerated fields) : m ∈ fields := by
  rcases List.mem_append.mp h with h | h
  · exact (List.mem_filter.mp ((List.mem_insertionSort _).mp h)).1
  · exact (List.mem_filter.mp h).1

/-- A number in an object that was read was printed. -/
theorem readValue_field : ∀ {fuel : Nat} {cs rest : List Char} {fields : List (String × Json)}
    {m : String × Json}, readValue number fuel cs = some (.object fields, rest) → m ∈ fields →
      ∃ fuel cs rest, readValue number fuel cs = some (m.2, rest)
  | 0, _, _, _, _, h, _ => absurd h (by rw [readValue]; exact Option.some_ne_none _ ∘ Eq.symm)
  | fuel + 1, cs, rest, fields, m, h, hm => by
    have hmembers : ∀ members, Json.object fields = ofMembers members → m ∈ members := by
      intro members heq
      rw [Json.object.inj heq] at hm
      rcases mem_foldl_assign (mem_of_mem_enumerated hm) with h | h
      · exact absurd h List.not_mem_nil
      · exact h
    rw [readValue] at h
    split at h
    next => exact absurd (Prod.mk.inj (Option.some.inj h)).1 (by simp)
    next => exact absurd (Prod.mk.inj (Option.some.inj h)).1 (by simp)
    next => exact absurd (Prod.mk.inj (Option.some.inj h)).1 (by simp)
    next =>
      obtain ⟨r, -, h⟩ := Option.map_eq_some_iff.mp h
      exact absurd (Prod.mk.inj h).1 (by simp)
    next =>
      split at h
      next => exact absurd (Prod.mk.inj (Option.some.inj h)).1 (by simp)
      next =>
        obtain ⟨r, -, h⟩ := Option.map_eq_some_iff.mp h
        exact absurd (Prod.mk.inj h).1 (by simp)
    next =>
      split at h
      next => exact absurd (hmembers [] (Prod.mk.inj (Option.some.inj h)).1.symm) List.not_mem_nil
      next =>
        obtain ⟨r, hr, h⟩ := Option.map_eq_some_iff.mp h
        exact mem_readMembers hr m (hmembers r.1 (Prod.mk.inj h).1.symm)
    next =>
      unfold readNumber at h
      dsimp only at h
      split at h
      next => exact absurd (Prod.mk.inj (Option.some.inj h)).1 (by simp)
      next => exact absurd h (by simp)

/-- The numbers of a body print on one line. -/
theorem line_of_parse (hnumber : Prints number) {text key t : String} {body : Json}
    (hbody : parse number text = some body) (hfield : body.field? key = some (.number t)) :
    '\n' ∉ t.toList := by
  obtain ⟨r, hr, hrest⟩ := Option.bind_eq_some_iff.mp hbody
  split at hrest
  next =>
    have hr1 : r.1 = body := Option.some.inj hrest
    cases body with
    | object fields =>
      obtain ⟨m, hm, hvalue⟩ := Option.map_eq_some_iff.mp hfield
      have hvalue' : readValue number (text.length + 1) text.toList = some (.object fields, r.2) :=
        hr.trans (congrArg (fun v => some (v, r.2)) hr1)
      obtain ⟨fuel, cs, rest, hread⟩ := readValue_field hvalue' (List.mem_of_find?_eq_some hm)
      rw [hvalue] at hread
      obtain ⟨lit, hlit, rfl⟩ := readValue_isNumber hread
      exact hnumber.line lit hlit
    | null => exact absurd hfield (fun h => nomatch h)
    | bool b => exact absurd hfield (fun h => nomatch h)
    | number t => exact absurd hfield (fun h => nomatch h)
    | string s => exact absurd hfield (fun h => nomatch h)
    | array xs => exact absurd hfield (fun h => nomatch h)
  next => exact absurd hrest (fun h => nomatch h)

end

end Json

end Js
