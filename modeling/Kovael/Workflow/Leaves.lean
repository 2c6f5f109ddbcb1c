import Mathlib.Data.List.TakeWhile
import Kovael.Workflow.Printing

/-!
# Printed leaves

What is read of a scalar or a list that was printed is what it was, but where a `#` stands
after white space, inside a string as well, and in an inline list where a string is empty or
has a comma (`kept_iff`). What is lost is counted: a text that was cut at a `#` has fewer of
them, and of the commas of an inline list none is left.
-/

namespace Kovael.Workflow

open Js (isWhitespace)

/-! ## Comments -/

/-- A `#` stands after white space, and no line separator behind it. -/
def HasComment (text : List Char) : Prop :=
  ∃ before c behind, text = before ++ c :: '#' :: behind ∧ isWhitespace c = true ∧
    ∀ d ∈ behind, isLineSeparator d = false

theorem startsComment_cons {c : Char} {behind : List Char} (hc : isWhitespace c = true)
    (hbehind : ∀ d ∈ behind, isLineSeparator d = false) :
    startsComment (c :: '#' :: behind) = true := by
  have hall : (behind.all fun c => !isLineSeparator c) = true := by
    rw [List.all_eq_true]
    intro d hd
    rw [hbehind d hd]
    rfl
  rw [startsComment, hc, List.dropWhile_cons_of_pos hc, List.dropWhile_cons_of_neg (by decide),
    Bool.true_and]
  exact hall

theorem hasComment_of_starts {text : List Char} (h : startsComment text = true) :
    HasComment text := by
  cases text with
  | nil => cases h
  | cons c cs =>
    rw [startsComment, Bool.and_eq_true] at h
    obtain ⟨hc, h⟩ := h
    split at h
    next comment hdrop =>
      -- the last character of the white space
      have htake : (c :: cs).takeWhile isWhitespace ≠ [] := by
        rw [List.takeWhile_cons_of_pos hc]
        exact List.cons_ne_nil _ _
      refine ⟨((c :: cs).takeWhile isWhitespace).dropLast,
        ((c :: cs).takeWhile isWhitespace).getLast htake, comment, ?_, ?_, ?_⟩
      · calc c :: cs = (c :: cs).takeWhile isWhitespace ++ '#' :: comment := by
              rw [← hdrop, List.takeWhile_append_dropWhile]
          _ = _ := by
              conv_lhs => rw [← List.dropLast_append_getLast htake]
              rw [List.append_assoc, List.singleton_append]
      · exact List.mem_takeWhile_imp (List.getLast_mem htake)
      · intro d hd
        have hd := List.all_eq_true.mp h d hd
        rwa [Bool.not_eq_true'] at hd
    next => cases h

/-- A text without a comment stays, and of any other a `#` is lost. -/
theorem stripComment_cases (text : List Char) :
    (stripComment text = text ∧ ¬ HasComment text) ∨
      (HasComment text ∧ (stripComment text).count '#' < text.count '#') := by
  induction text with
  | nil =>
    refine Or.inl ⟨rfl, ?_⟩
    intro hgiven
    obtain ⟨before, c, behind, htext, -⟩ := hgiven
    cases before with
    | nil => cases htext
    | cons d before => cases htext
  | cons c cs ih =>
    rw [stripComment]
    by_cases hstarts : startsComment (c :: cs) = true
    · rw [if_pos hstarts]
      obtain ⟨before, d, behind, htext, hd⟩ := hasComment_of_starts hstarts
      refine Or.inr ⟨⟨before, d, behind, htext, hd⟩, ?_⟩
      rw [htext]
      exact List.count_pos_iff.mpr (List.mem_append_right _ (by simp))
    · rw [if_neg hstarts]
      rcases ih with ⟨hself, hnot⟩ | ⟨hcomment, hlt⟩
      · refine Or.inl ⟨by rw [hself], ?_⟩
        intro hgiven
        obtain ⟨before, d, behind, htext, hd, hbehind⟩ := hgiven
        cases before with
        | nil =>
          rw [htext] at hstarts
          exact hstarts (startsComment_cons hd hbehind)
        | cons b before => exact hnot ⟨before, d, behind, (List.cons.inj htext).2, hd, hbehind⟩
      · obtain ⟨before, d, behind, rfl, hd⟩ := hcomment
        refine Or.inr ⟨⟨c :: before, d, behind, rfl, hd⟩, ?_⟩
        rw [List.count_cons, List.count_cons]
        omega

theorem stripComment_self {text : List Char} (h : ¬ HasComment text) :
    stripComment text = text := by
  rcases stripComment_cases text with ⟨hself, -⟩ | ⟨hcomment, -⟩
  · exact hself
  · exact absurd hcomment h

theorem stripComment_sublist (text : List Char) : (stripComment text).Sublist text := by
  induction text with
  | nil => exact List.Sublist.refl _
  | cons c cs ih =>
    rw [stripComment]
    split
    next => exact List.nil_sublist _
    next => exact ih.cons_cons c

theorem trimmed_sublist (cs : List Char) : (trimmed cs).Sublist cs := by
  have h := (List.dropWhile_sublist isWhitespace
    (l := (cs.dropWhile isWhitespace).reverse)).reverse
  rw [List.reverse_reverse] at h
  exact h.trans (List.dropWhile_sublist isWhitespace)

/-! ## Printed scalars -/

/-- The characters of a string. -/
def Scalar.chars : Scalar → List Char
  | .string s => s.text.toList
  | _ => []

/-- Every character of an integer is its sign or a digit. -/
theorem mem_intText {n : Int} {c : Char} (h : c ∈ intText n) : c = '-' ∨ c.isDigit = true := by
  have hdigits : ∀ {d : Char}, d ∈ Nat.toDigits 10 n.natAbs → d.isDigit = true := by
    intro d hd
    exact Nat.isDigit_of_mem_toDigits (by decide) le_rfl hd
  rw [intText] at h
  split at h
  next =>
    rcases List.mem_cons.mp h with hsign | h
    · exact Or.inl hsign
    · exact Or.inr (hdigits h)
  next => exact Or.inr (hdigits h)

/-- Every character of a printed scalar is one of a word or one of its string. -/
theorem Scalar.mem_text {x : Scalar} {c : Char} (h : c ∈ x.text) :
    c = '-' ∨ c = '\'' ∨ isIdentifierPart c = true ∨ c ∈ x.chars := by
  cases x with
  | int n =>
    rcases mem_intText h with hsign | hdigit
    · exact Or.inl hsign
    · exact Or.inr (Or.inr (Or.inl (isIdentifierPart_of_isDigit hdigit)))
  | bool b =>
    have hword : ∀ word : List Char, word.all isIdentifierPart = true → c ∈ word →
        c = '-' ∨ c = '\'' ∨ isIdentifierPart c = true ∨ c ∈ (Scalar.bool b).chars := by
      intro word hall hmem
      exact Or.inr (Or.inr (Or.inl (List.all_eq_true.mp hall c hmem)))
    cases b with
    | true => exact hword _ rfl h
    | false => exact hword _ rfl h
  | string s =>
    rcases List.mem_cons.mp h with hquote | h
    · exact Or.inr (Or.inl hquote)
    rcases List.mem_append.mp h with h | h
    · exact Or.inr (Or.inr (Or.inr h))
    · exact Or.inr (Or.inl (List.mem_singleton.mp h))

/-- A character that no word has. -/
def IsMark (c : Char) : Prop := c ≠ '-' ∧ c ≠ '\'' ∧ isIdentifierPart c = false

/-- Of such a character a printed scalar has what its string has. -/
theorem Scalar.count_text {c : Char} (hc : IsMark c) (x : Scalar) :
    x.text.count c = x.chars.count c := by
  cases x with
  | int n =>
    refine List.count_eq_zero.mpr ?_
    intro hmem
    rcases mem_intText hmem with hsign | hdigit
    · exact hc.1 hsign
    · exact absurd (isIdentifierPart_of_isDigit hdigit) (hc.2.2 ▸ Bool.false_ne_true)
  | bool b =>
    refine List.count_eq_zero.mpr ?_
    intro hmem
    rcases Scalar.mem_text hmem with hsign | hquote | hpart | hstring
    · exact hc.1 hsign
    · exact hc.2.1 hquote
    · exact absurd hpart (hc.2.2 ▸ Bool.false_ne_true)
    · exact List.not_mem_nil hstring
  | string s =>
    have hquote : List.count c ['\''] = 0 :=
      List.count_eq_zero.mpr fun hmem => hc.2.1 (List.mem_singleton.mp hmem)
    show List.count c ('\'' :: (s.text.toList ++ ['\''])) = _
    rw [List.count_cons_of_ne (Ne.symm hc.2.1), List.count_append, hquote]
    rfl

/-- A printed scalar ends with no white space. -/
theorem Scalar.last_text (x : Scalar) : ∀ c, x.text.getLast? = some c → isWhitespace c = false := by
  intro c hc
  cases x with
  | int n =>
    rcases mem_intText (List.mem_of_getLast? hc) with rfl | hdigit
    · decide
    · exact not_space_of_part (isIdentifierPart_of_isDigit hdigit)
  | bool b =>
    cases b with
    | true =>
      obtain rfl := Option.some.inj hc
      decide
    | false =>
      obtain rfl := Option.some.inj hc
      decide
  | string s =>
    have hlast : (Scalar.text (.string s)).getLast? = some '\'' := by
      show ('\'' :: (s.text.toList ++ ['\''])).getLast? = some '\''
      rw [← List.cons_append, List.getLast?_append]
      rfl
    obtain rfl := Option.some.inj (hlast.symm.trans hc)
    decide

theorem head_of_starts {text : List Char} (h : Starts text) :
    ∀ c, text.head? = some c → isWhitespace c = false := by
  obtain ⟨d, cs, rfl, hd, -⟩ := h
  intro c hc
  obtain rfl := Option.some.inj hc
  exact hd

theorem Scalar.trimmed_text (x : Scalar) : trimmed x.text = x.text :=
  trimmed_eq_self (head_of_starts x.starts) x.last_text

/-! ## Scalars that are read -/

theorem digitsValue_toDigits (n : Nat) : digitsValue (Nat.toDigits 10 n) = n :=
  Nat.ofDigitChars_ten_toDigits

theorem isDigits_toDigits (n : Nat) : isDigits (Nat.toDigits 10 n) = true := by
  rw [isDigits, Bool.and_eq_true, Bool.not_eq_true', List.isEmpty_eq_false_iff, List.all_eq_true]
  exact ⟨Nat.toDigits_ne_nil, fun c hc => Nat.isDigit_of_mem_toDigits (by decide) le_rfl hc⟩

theorem signed_of_head {c : Char} (hc : c ≠ '-') (cs : List Char) :
    signed (c :: cs) = (false, c :: cs) := by
  rw [signed]
  intro cs' h
  exact hc (List.cons.inj h).1

/-- A run of digits is an integer. -/
theorem numeral?_digits (negative : Bool) {text : List Char} (n : Nat)
    (h : signed text = (negative, Nat.toDigits 10 n)) :
    numeral? text = some (.fin (withSign negative n)) := by
  have hpoint : (Nat.toDigits 10 n).dropWhile (· ≠ '.') = [] := by
    rw [List.dropWhile_eq_nil_iff]
    intro c hc
    refine decide_eq_true ?_
    intro heq
    obtain rfl := heq
    exact absurd (Nat.isDigit_of_mem_toDigits (by decide) le_rfl hc) (by decide)
  rw [numeral?, h]
  dsimp only
  rw [hpoint]
  dsimp only
  rw [if_pos (isDigits_toDigits n), digitsValue_toDigits]

theorem numeral?_intText (n : Int) : numeral? (intText n) = some (.fin n) := by
  have hsigned : ∀ m : Nat, signed (Nat.toDigits 10 m) = (false, Nat.toDigits 10 m) := by
    intro m
    cases hdigits : Nat.toDigits 10 m with
    | nil => rfl
    | cons c cs =>
      refine signed_of_head ?_ cs
      intro heq
      obtain rfl := heq
      have hminus : '-' ∈ Nat.toDigits 10 m := by
        rw [hdigits]
        exact List.mem_cons_self ..
      exact absurd (Nat.isDigit_of_mem_toDigits (by decide) le_rfl hminus) (by decide)
  rw [intText]
  split
  next hneg =>
    rw [numeral?_digits true n.natAbs rfl]
    have habs : (n : ℚ) = -(n.natAbs : ℚ) := by
      have hint : n = -(n.natAbs : Int) := by omega
      calc (n : ℚ) = ((-(n.natAbs : Int) : Int) : ℚ) := congrArg _ hint
        _ = -(n.natAbs : ℚ) := by rw [Int.cast_neg, Int.cast_natCast]
    rw [habs]
    rfl
  next hneg =>
    rw [numeral?_digits false n.natAbs (hsigned _)]
    have habs : (n : ℚ) = (n.natAbs : ℚ) := by
      have hint : n = (n.natAbs : Int) := by omega
      calc (n : ℚ) = ((n.natAbs : Int) : ℚ) := congrArg _ hint
        _ = (n.natAbs : ℚ) := Int.cast_natCast _
    rw [habs]
    rfl

/-- A text in quotes is no number. -/
theorem numeral?_quoted (cs : List Char) : numeral? ('\'' :: cs) = none := by
  have hwhole : isDigits (('\'' :: cs).takeWhile (· ≠ '.')) = false := by
    rw [List.takeWhile_cons_of_pos (by decide)]
    rfl
  rw [numeral?, signed_of_head (by decide)]
  dsimp only
  rw [hwhole]
  split
  next => rfl
  next => rfl

theorem ofList_ne {cs : List Char} {s : String} (h : cs.head? ≠ s.toList.head?) :
    String.ofList cs ≠ s := by
  intro heq
  obtain rfl := heq
  rw [String.toList_ofList] at h
  exact h rfl

/-- A text that begins as no word does is read as a number or a string. -/
theorem parseScalar_of_head {c : Char} {cs : List Char} (hc : c ∉ ['~', 'n', 't', 'f']) :
    parseScalar (c :: cs) = ((numeral? (c :: cs)).map Value.number).getD
      (if quotedBy '\'' (c :: cs) || quotedBy '"' (c :: cs) then
        .string (String.ofList (unwrapped (c :: cs)))
      else .string (String.ofList (c :: cs))) := by
  simp only [List.mem_cons, List.not_mem_nil, or_false, not_or] at hc
  have hne : ∀ {s : String}, s.toList.head? ≠ some c → String.ofList (c :: cs) ≠ s :=
    fun h => ofList_ne h.symm
  have hword : ∀ d : Char, c ≠ d → some d ≠ some c :=
    fun d h hsome => h (Option.some.inj hsome).symm
  have hnull : ¬ (String.ofList (c :: cs) = "" ∨ String.ofList (c :: cs) = "~" ∨
      String.ofList (c :: cs) = "null") := by
    intro hcases
    rcases hcases with h | h | h
    · exact @hne "" (by simp) h
    · exact @hne "~" (hword '~' hc.1) h
    · exact @hne "null" (hword 'n' hc.2.1) h
  rw [parseScalar, if_neg hnull, if_neg (@hne "true" (hword 't' hc.2.2.1)),
    if_neg (@hne "false" (hword 'f' hc.2.2.2))]
  cases numeral? (c :: cs) with
  | some n => rfl
  | none => rfl

theorem not_word_of_isDigit {c : Char} (h : c.isDigit = true) : c ∉ ['~', 'n', 't', 'f'] := by
  intro hmem
  have hall : (['~', 'n', 't', 'f'].all fun c => !c.isDigit) = true := rfl
  have hc := List.all_eq_true.mp hall c hmem
  rw [h] at hc
  cases hc

theorem unwrapped_eq (first last : Char) (cs : List Char) :
    unwrapped (first :: (cs ++ [last])) = cs := by
  rw [unwrapped, List.drop_succ_cons, List.drop_zero, List.dropLast_concat]

/-- A printed scalar is read as what it was. -/
theorem parseScalar_text (x : Scalar) : parseScalar x.text = x.value := by
  cases x with
  | int n =>
    have hnumeral := numeral?_intText n.val
    show parseScalar (intText n.val) = .number (.fin n.val)
    cases htext : intText n.val with
    | nil =>
      obtain ⟨c, cs, hstarts, -⟩ := starts_intText n.val
      rw [htext] at hstarts
      cases hstarts
    | cons c cs =>
      have hc : c ∉ ['~', 'n', 't', 'f'] := by
        rcases mem_intText (by rw [htext]; exact List.mem_cons_self ..) with rfl | hdigit
        · decide
        · exact not_word_of_isDigit hdigit
      rw [parseScalar_of_head hc, ← htext, hnumeral]
      rfl
  | bool b =>
    cases b with
    | true => rfl
    | false => rfl
  | string s =>
    have hquoted : quotedBy '\'' ('\'' :: (s.text.toList ++ ['\''])) = true := by
      rw [quotedBy, ← List.cons_append, List.getLast?_append]
      rfl
    show parseScalar ('\'' :: (s.text.toList ++ ['\''])) = .string s.text
    rw [parseScalar_of_head (by decide), numeral?_quoted, Option.map_none, Option.getD_none,
      hquoted, Bool.true_or, if_pos rfl, unwrapped_eq, String.ofList_toList]

/-- Behind a key a printed scalar is read as behind a dash. -/
theorem readText_scalar (x : Scalar) : readText x.text = readItem x.text := by
  have hhead : (trimmed (stripComment x.text)).head? = x.text.head? := by
    obtain ⟨c, cs, htext, hc, hcomment⟩ := x.starts
    rw [head?_trimmed, dropWhile_of_starts x.starts.strip, htext, stripComment_of_not_space hc]
    rfl
  have hbracket : x.text.head? ≠ some '[' := by
    intro h
    rcases Scalar.mem_text (List.mem_of_mem_head? h) with hc | hc | hc | hc
    · exact absurd hc (by decide)
    · exact absurd hc (by decide)
    · exact absurd hc (by decide)
    · cases x with
      | int n => exact List.not_mem_nil hc
      | bool b => exact List.not_mem_nil hc
      | string s => exact absurd (Option.some.inj h) (by decide)
  rw [readText, entryValue, if_neg (trimmed_ne_nil x.starts), hhead, decide_eq_false hbracket,
    Bool.false_and, if_neg Bool.false_ne_true, readItem]

/-! ## Occurrences -/

/-- How often the character stands in a string. -/
def inString (c : Char) : Value → Nat
  | .string s => s.toList.count c
  | _ => 0

/-- How often the character stands in a scalar or in the scalars of a list. -/
def occurrences (c : Char) : Value → Nat
  | .list xs => (xs.map (inString c)).sum
  | v => inString c v

theorem inString_value (c : Char) (x : Scalar) : inString c x.value = x.chars.count c := by
  cases x with
  | int n => rfl
  | bool b => rfl
  | string s => rfl

theorem occurrences_value (c : Char) (x : Scalar) : occurrences c x.value = x.chars.count c := by
  rw [← inString_value]
  cases x with
  | int n => rfl
  | bool b => rfl
  | string s => rfl

theorem unwrapped_sublist (cs : List Char) : (unwrapped cs).Sublist cs :=
  (List.dropLast_sublist _).trans (List.drop_sublist 1 cs)

/-- What a scalar is; the characters of a string are some of its text. -/
theorem parseScalar_cases (cs : List Char) :
    parseScalar cs = .null ∨ (∃ b, parseScalar cs = .bool b) ∨ (∃ n, parseScalar cs = .number n) ∨
      ∃ s, parseScalar cs = .string (String.ofList s) ∧ s.Sublist cs := by
  rw [parseScalar]
  split
  next => exact Or.inl rfl
  split
  next => exact Or.inr (Or.inl ⟨true, rfl⟩)
  split
  next => exact Or.inr (Or.inl ⟨false, rfl⟩)
  cases numeral? cs with
  | some n => exact Or.inr (Or.inr (Or.inl ⟨n, rfl⟩))
  | none =>
    dsimp only
    split
    next => exact Or.inr (Or.inr (Or.inr ⟨_, rfl, unwrapped_sublist cs⟩))
    next => exact Or.inr (Or.inr (Or.inr ⟨_, rfl, List.Sublist.refl cs⟩))

/-- A scalar has no more of a character than its text. -/
theorem inString_parseScalar (c : Char) (cs : List Char) :
    inString c (parseScalar cs) ≤ cs.count c := by
  rcases parseScalar_cases cs with h | ⟨b, h⟩ | ⟨n, h⟩ | ⟨s, h, hs⟩
  · rw [h]
    exact Nat.zero_le _
  · rw [h]
    exact Nat.zero_le _
  · rw [h]
    exact Nat.zero_le _
  · rw [h, inString, String.toList_ofList]
    exact hs.count_le c

theorem occurrences_parseScalar (c : Char) (cs : List Char) :
    occurrences c (parseScalar cs) ≤ cs.count c := by
  refine (Nat.le_of_eq ?_).trans (inString_parseScalar c cs)
  rcases parseScalar_cases cs with h | ⟨b, h⟩ | ⟨n, h⟩ | ⟨s, h, -⟩
  all_goals rw [h]; rfl

theorem inString_items (c : Char) (parts : List (List Char)) :
    (((parts.map fun item => parseScalar (trimmed item)).filter notEmptyString).map
      (inString c)).sum ≤ (parts.map (List.count c)).sum := by
  induction parts with
  | nil => exact le_rfl
  | cons part parts ih =>
    have hpart : inString c (parseScalar (trimmed part)) ≤ part.count c :=
      (inString_parseScalar c _).trans ((trimmed_sublist part).count_le c)
    rw [List.map_cons, List.filter_cons, List.map_cons, List.sum_cons]
    split
    next =>
      rw [List.map_cons, List.sum_cons]
      exact Nat.add_le_add hpart ih
    next => exact ih.trans (Nat.le_add_left ..)

/-- What a text of parts has of a character, its parts and its separators have. -/
theorem count_intercalate (c : Char) (sep : List Char) (parts : List (List Char)) :
    ∃ k, (sep.intercalate parts).count c = (parts.map (List.count c)).sum + k * sep.count c := by
  induction parts with
  | nil => exact ⟨0, by simp⟩
  | cons part parts ih =>
    obtain ⟨k, hk⟩ := ih
    cases parts with
    | nil => exact ⟨0, by simp⟩
    | cons part' parts =>
      have hsum : ((part :: part' :: parts).map (List.count c)).sum =
          part.count c + ((part' :: parts).map (List.count c)).sum := List.sum_cons
      refine ⟨k + 1, ?_⟩
      rw [List.intercalate_cons_cons, List.count_append, List.count_append, hk, hsum, Nat.add_mul,
        Nat.one_mul]
      omega

theorem occurrences_parseInlineList (c : Char) (rest : List Char) :
    occurrences c (parseInlineList rest) ≤ rest.count c := by
  obtain ⟨k, hk⟩ := count_intercalate c [','] ((unwrapped rest).splitOn ',')
  rw [List.intercalate_splitOn] at hk
  calc occurrences c (parseInlineList rest)
      ≤ (((unwrapped rest).splitOn ',').map (List.count c)).sum := inString_items c _
    _ ≤ (unwrapped rest).count c := by
      rw [hk]
      exact Nat.le_add_right ..
    _ ≤ rest.count c := (unwrapped_sublist rest).count_le c

/-- No part has the separator. -/
theorem not_mem_of_mem_splitOn {sep : Char} (cs : List Char) :
    ∀ {part : List Char}, part ∈ cs.splitOn sep → sep ∉ part := by
  induction cs with
  | nil =>
    intro part hpart
    obtain rfl := List.mem_singleton.mp hpart
    exact List.not_mem_nil
  | cons c cs ih =>
    intro part hpart
    rw [List.splitOn_cons_eq_if_modifyHead] at hpart
    split at hpart
    next =>
      rcases List.mem_cons.mp hpart with rfl | hpart
      · exact List.not_mem_nil
      · exact ih hpart
    next hc =>
      have hsep : sep ≠ c := fun h => hc (beq_iff_eq.mpr h.symm)
      cases hparts : cs.splitOn sep with
      | nil => exact absurd hparts (List.splitOn_ne_nil sep cs)
      | cons head parts =>
        rw [hparts] at hpart ih
        rcases List.mem_cons.mp hpart with rfl | hpart
        · exact fun h => (List.mem_cons.mp h).elim hsep (ih (List.mem_cons_self ..))
        · exact ih (List.mem_cons_of_mem _ hpart)

/-- Of the commas of an inline list none is left. -/
theorem comma_parseInlineList (rest : List Char) : occurrences ',' (parseInlineList rest) = 0 := by
  have hparts : ∀ part ∈ (unwrapped rest).splitOn ',', part.count ',' = 0 := by
    intro part hpart
    exact List.count_eq_zero.mpr (not_mem_of_mem_splitOn _ hpart)
  refine Nat.eq_zero_of_le_zero ((inString_items ',' _).trans (Nat.le_of_eq ?_))
  rw [List.sum_eq_zero_iff_forall_eq_nat]
  intro n hn
  obtain ⟨part, hpart, rfl⟩ := List.mem_map.mp hn
  exact hparts part hpart

/-- What is read has no more of a character than the text without its comment. -/
theorem occurrences_readText (c : Char) (text : List Char) :
    occurrences c (readText text) ≤ (stripComment text).count c := by
  have htrimmed := (trimmed_sublist (stripComment text)).count_le c
  rw [readText, entryValue]
  split
  next => exact Nat.zero_le _
  split
  next => exact (occurrences_parseInlineList c _).trans htrimmed
  next => exact (occurrences_parseScalar c _).trans htrimmed

/-! ## Inline lists -/

theorem trimmed_inlineText (xs : List Scalar) : trimmed (inlineText xs) = inlineText xs := by
  refine trimmed_eq_self (head_of_starts (starts_inlineText xs)) ?_
  intro c hc
  rw [inlineText, ← List.cons_append, List.getLast?_append] at hc
  obtain rfl := Option.some.inj hc
  decide

/-- Without a comment an inline list is read as one. -/
theorem readText_inlineText {xs : List Scalar} (h : ¬ HasComment (inlineText xs)) :
    readText (inlineText xs) = parseInlineList (inlineText xs) := by
  have hlast : (inlineText xs).getLast? = some ']' := by
    rw [inlineText, ← List.cons_append, List.getLast?_append]
    rfl
  have hne : inlineText xs ≠ [] := List.cons_ne_nil _ _
  rw [readText, stripComment_self h, trimmed_inlineText, entryValue, if_neg hne, hlast]
  rfl

/-- Of a character an inline list has what its strings have. -/
theorem count_inlineText {c : Char} (hc : IsMark c) (hne : c ∉ ['[', ']', ',', ' '])
    (xs : List Scalar) : (inlineText xs).count c = (xs.map fun x => x.chars.count c).sum := by
  simp only [List.mem_cons, List.not_mem_nil, or_false, not_or] at hne
  obtain ⟨hopen, hclose, hcomma, hspace⟩ := hne
  obtain ⟨k, hk⟩ := count_intercalate c [',', ' '] (xs.map Scalar.text)
  have hsep : List.count c [',', ' '] = 0 := by
    rw [List.count_eq_zero, List.mem_cons, List.mem_singleton, not_or]
    exact ⟨hcomma, hspace⟩
  have hend : List.count c [']'] = 0 :=
    List.count_eq_zero.mpr fun hmem => hclose (List.mem_singleton.mp hmem)
  rw [inlineText, List.count_cons_of_ne (Ne.symm hopen), List.count_append, hend, hk, hsep,
    List.map_map]
  exact congrArg List.sum (List.map_congr_left fun x _ => Scalar.count_text hc x)

/-- The blank behind a comma belongs to the part behind it. -/
theorem intercalate_blank (part : List Char) (parts : List (List Char)) :
    [',', ' '].intercalate (part :: parts) = [','].intercalate (part :: parts.map (' ' :: ·)) := by
  induction parts generalizing part with
  | nil => rw [List.map_nil, List.intercalate_singleton, List.intercalate_singleton]
  | cons part' parts ih =>
    rw [List.intercalate_cons_cons, ih, List.map_cons, List.intercalate_cons_cons,
      List.intercalate_cons_cons_left, List.append_assoc, List.append_assoc]
    rfl

/-- Non-empty strings without commas are read in an inline list as what they were. -/
theorem parseInlineList_text (xs : List Scalar) (hne : xs ≠ [])
    (hxs : ∀ x ∈ xs, x.value ≠ .string "" ∧ ',' ∉ x.chars) :
    parseInlineList (inlineText xs) = .list (xs.map Scalar.value) := by
  cases xs with
  | nil => exact absurd rfl hne
  | cons x xs =>
    have hcomma : ∀ y ∈ x :: xs, ',' ∉ y.text := by
      intro y hy
      rw [← List.count_eq_zero, Scalar.count_text ⟨by decide, by decide, by decide⟩,
        List.count_eq_zero]
      exact (hxs y hy).2
    have hparts : (unwrapped (inlineText (x :: xs))).splitOn ',' =
        x.text :: (xs.map Scalar.text).map (' ' :: ·) := by
      rw [inlineText, unwrapped_eq, List.map_cons, intercalate_blank, List.splitOn_intercalate]
      · intro part hpart
        rcases List.mem_cons.mp hpart with rfl | hpart
        · exact hcomma x (List.mem_cons_self ..)
        · obtain ⟨text, htext, rfl⟩ := List.mem_map.mp hpart
          obtain ⟨y, hy, rfl⟩ := List.mem_map.mp htext
          intro hmem
          rcases List.mem_cons.mp hmem with hspace | hmem
          · exact absurd hspace (by decide)
          · exact hcomma y (List.mem_cons_of_mem _ hy) hmem
      · exact List.cons_ne_nil _ _
    have hitem : ∀ y : Scalar, parseScalar (trimmed (' ' :: y.text)) = y.value := by
      intro y
      rw [trimmed_space, y.trimmed_text, parseScalar_text]
    have hitems : ((unwrapped (inlineText (x :: xs))).splitOn ',').map
        (fun item => parseScalar (trimmed item)) = (x :: xs).map Scalar.value := by
      rw [hparts, List.map_cons, x.trimmed_text, parseScalar_text, List.map_map, List.map_map,
        List.map_cons]
      exact congrArg (x.value :: ·) (List.map_congr_left fun y _ => hitem y)
    rw [parseInlineList, hitems, List.filter_eq_self.mpr]
    intro v hv
    obtain ⟨y, hy, rfl⟩ := List.mem_map.mp hv
    cases y with
    | int n => rfl
    | bool b => rfl
    | string s =>
      refine decide_eq_true ?_
      intro hempty
      exact (hxs _ hy).1 (congrArg Value.string hempty)

/-! ## Leaves that are kept -/

/-- The scalars of a leaf. -/
def Leaf.scalars : Leaf → List Scalar
  | .scalar x => [x]
  | .inlineList xs => xs
  | .blockList xs => xs

/-- What the lines of the leaf say is what it is: a list is not empty, the text has no
comment, and in an inline list no string is empty or has a comma. -/
def Leaf.Kept : Leaf → Prop
  | .scalar x => ¬ HasComment x.text
  | .inlineList xs =>
    xs ≠ [] ∧ (∀ x ∈ xs, x.value ≠ .string "" ∧ ',' ∉ x.chars) ∧ ¬ HasComment (inlineText xs)
  | .blockList xs => xs ≠ [] ∧ ∀ x ∈ xs, ¬ HasComment x.text

theorem occurrences_leaf (c : Char) (value : Leaf) :
    occurrences c value.value = (value.scalars.map fun x => x.chars.count c).sum := by
  have hlist : ∀ xs : List Scalar, ((xs.map Scalar.value).map (inString c)).sum =
      (xs.map fun x => x.chars.count c).sum := by
    intro xs
    rw [List.map_map]
    exact congrArg List.sum (List.map_congr_left fun x _ => inString_value c x)
  cases value with
  | scalar x => exact (occurrences_value c x).trans (Nat.add_zero _).symm
  | inlineList xs => exact hlist xs
  | blockList xs => exact hlist xs

/-- A text that is read with all its `#` has no comment. -/
theorem not_hasComment {text : List Char}
    (h : text.count '#' ≤ occurrences '#' (readText text)) : ¬ HasComment text := by
  rcases stripComment_cases text with ⟨-, hnot⟩ | ⟨-, hlt⟩
  · exact hnot
  · exact absurd (h.trans (occurrences_readText '#' text)) (Nat.not_le.mpr hlt)

theorem isMark_hash : IsMark '#' := ⟨by decide, by decide, by decide⟩

/-- A scalar is read as what it was if its text has no comment. -/
theorem readText_scalar_iff (x : Scalar) : readText x.text = x.value ↔ ¬ HasComment x.text := by
  constructor
  · intro h
    refine not_hasComment ?_
    rw [h, occurrences_value, Scalar.count_text isMark_hash]
  · intro h
    rw [readText_scalar, readItem, stripComment_self h, x.trimmed_text, parseScalar_text]

/-- An inline list is read as what it was. -/
theorem readText_inlineText_iff (xs : List Scalar) :
    readText (inlineText xs) = .list (xs.map Scalar.value) ↔ (Leaf.inlineList xs).Kept := by
  constructor
  · intro h
    have hnot : ¬ HasComment (inlineText xs) := by
      refine not_hasComment ?_
      rw [h, count_inlineText isMark_hash (by decide)]
      exact (occurrences_leaf '#' (.inlineList xs)).ge
    rw [readText_inlineText hnot] at h
    refine ⟨?_, ?_, hnot⟩
    · intro heq
      obtain rfl := heq
      cases (h : Value.list [.null] = .list [])
    · intro x hx
      constructor
      · intro hempty
        have hmem : Value.string "" ∈ xs.map Scalar.value := List.mem_map.mpr ⟨x, hx, hempty⟩
        rw [← Value.list.inj h] at hmem
        exact absurd (List.mem_filter.mp hmem).2 (by decide)
      · have hzero := comma_parseInlineList (inlineText xs)
        rw [h] at hzero
        have hsum := (occurrences_leaf ',' (.inlineList xs)).symm.trans hzero
        exact List.count_eq_zero.mp
          (List.sum_eq_zero_iff_forall_eq_nat.mp hsum _ (List.mem_map.mpr ⟨x, hx, rfl⟩))
  · intro hgiven
    obtain ⟨hne, hxs, hnot⟩ := hgiven
    rw [readText_inlineText hnot, parseInlineList_text xs hne hxs]

/-- What is read of a leaf is what it was, if the leaf is kept by its lines. -/
theorem kept_iff (value : Leaf) : value.read = value.value ↔ value.Kept := by
  cases value with
  | scalar x => exact readText_scalar_iff x
  | inlineList xs => exact readText_inlineText_iff xs
  | blockList xs =>
    cases xs with
    | nil =>
      refine ⟨fun h => ?_, fun h => absurd rfl h.1⟩
      cases (h : Value.emptyMap = .list [])
    | cons x xs =>
      have hitems : (Leaf.blockList (x :: xs)).read = (Leaf.blockList (x :: xs)).value ↔
          ∀ y ∈ x :: xs, readItem y.text = y.value := by
        rw [Leaf.read, Leaf.value, Value.list.injEq]
        exact List.map_inj_left
      rw [hitems, Leaf.Kept]
      constructor
      · intro h
        refine ⟨List.cons_ne_nil _ _, fun y hy => ?_⟩
        rw [← readText_scalar_iff, readText_scalar]
        exact h y hy
      · intro hgiven
        obtain ⟨-, h⟩ := hgiven
        intro y hy
        rw [← readText_scalar, readText_scalar_iff]
        exact h y hy

end Kovael.Workflow
